import LibDht.Net.NodeIo
import LibDht.Net.Wrapper

/-!
# Running out of connections

An operation that needs a connection may find no slot, no `bufferevent` or no memory, and
the connection may not be opened. Most operations then stop: the number that they have is
negative, and they look at it before they use a buffer. Notifying a node and making a
connection for a handler do not look, and an accepted socket that gets no `bufferevent` is
not closed by anyone.
-/

/-- What becomes of a socket that is accepted: the `bufferevent` in a slot owns it, it was
closed with its `bufferevent`, or nobody has it. -/
inductive AcceptedSocket where
  | owned (i : Fin maxOpenConnections)
  | closed
  | dropped
  deriving DecidableEq, Repr

section

variable {D E A : Type}

/-- `listen_evt_cb`, with what becomes of the socket: once a `bufferevent` was made for it,
freeing one closes the other. -/
def listenEvtCbSocket (srv : NetServer D E A) (peer : UInt32)
    (incomingHandler : ℤ → NetServer D E A → NetServer D E A) : AcceptedSocket × NetServer D E A :=
  match netEmptyConnectionSlot srv with
  | none => (.dropped, srv)
  | some i =>
    let (o, srv) := srv.ask
    if !o.bevNew then (.dropped, srv)
    else
      let srv := srv.newBev i peer
      if !o.malloc then (.closed, netConnectionClose srv i.val)
      else
        let srv := srv.modify i (fun c => { c with netCbArg := some i.val })
        let srv := incomingHandler i.val srv
        (.owned i, srv.modifyBev i (fun b => { b with enabled := true }))

theorem listenEvtCbSocket_snd (srv : NetServer D E A) (peer : UInt32)
    (incomingHandler : ℤ → NetServer D E A → NetServer D E A) :
  (listenEvtCbSocket srv peer incomingHandler).2 = listenEvtCb srv peer incomingHandler
  := by
  rw [listenEvtCbSocket, listenEvtCb]
  cases netEmptyConnectionSlot srv with
  | none => rfl
  | some i =>
    cases hbev : srv.ask.1.bevNew <;> cases hmalloc : srv.ask.1.malloc <;> simp [hbev, hmalloc]

/-! ### What an operation needs -/

/-- A connection can be made: a slot is free, and a `bufferevent` and the memory for its
argument are found. -/
structure NetServer.CanCreate (srv : NetServer D E A) : Prop where
  slot : ∃ i, (srv.connections i).bev = none
  bevNew : (srv.outcome srv.calls).bevNew = true
  malloc : (srv.outcome srv.calls).malloc = true

/-- A message can be sent: a connection can be made, the message can be formatted, and the
connection can be opened. -/
structure NetServer.CanSend (srv : NetServer D E A) : Prop extends srv.CanCreate where
  printf : (srv.outcome (srv.calls + 1)).printf = true
  connect : (srv.outcome (srv.calls + 2)).connect = true

theorem netEmptyConnectionSlot_eq_none {srv : NetServer D E A} :
  netEmptyConnectionSlot srv = none ↔ ¬ ∃ i, (srv.connections i).bev = none
  := by
  rw [netEmptyConnectionSlot_eq_find, Fin.find?_eq_none_iff, not_exists]
  apply forall_congr'
  intro i
  rw [Option.isNone_eq_false_iff, Option.isSome_iff_ne_none]

theorem exists_netEmptyConnectionSlot {srv : NetServer D E A}
    (h : ∃ i, (srv.connections i).bev = none) :
  ∃ i, netEmptyConnectionSlot srv = some i
  := by
  apply Option.ne_none_iff_exists'.mp
  intro hnone
  exact netEmptyConnectionSlot_eq_none.mp hnone h

/-- What has been made or not: a connection, or a negative number. -/
theorem netConnectionCreate_cases (srv : NetServer D E A) (IP : UInt32) (port : UInt16) :
  (netConnectionCreate srv IP port).2.crashed = srv.crashed
    ∧ ((srv.CanCreate ∧ ∃ i b, (netConnectionCreate srv IP port).1 = (i.val : ℤ)
        ∧ ((netConnectionCreate srv IP port).2.connections i).bev = some b)
      ∨ (¬ srv.CanCreate ∧ (netConnectionCreate srv IP port).1 = -1))
  := by
  cases hi : netEmptyConnectionSlot srv with
  | none =>
    have hfull : ¬ srv.CanCreate := fun h => netEmptyConnectionSlot_eq_none.mp hi h.slot
    rw [netConnectionCreate, hi]
    exact ⟨rfl, Or.inr ⟨hfull, rfl⟩⟩
  | some i =>
    rw [netConnectionCreate_of_slot hi]
    split_ifs with hbev hmalloc
    · refine ⟨rfl, Or.inl ⟨⟨⟨i, netEmptyConnectionSlot_bev hi⟩, hbev, hmalloc⟩, i,
        srv.freshBev IP, rfl, ?_⟩⟩
      simp [created]
    · exact ⟨rfl, Or.inr ⟨fun h => hmalloc h.malloc, rfl⟩⟩
    · exact ⟨rfl, Or.inr ⟨fun h => hbev h.bevNew, rfl⟩⟩

/-- A message that can be sent is in the output buffer of the first empty slot. -/
theorem nodeConnectAndSendMessage_of_canSend {srv : NetServer D E A} (h : srv.CanSend)
    {i : Fin maxOpenConnections} (hi : netEmptyConnectionSlot srv = some i) (msg : NodeMessage)
    (readCb : Option D) (eventCb : Option E) (cbArg : Option A) :
  nodeConnectAndSendMessage srv msg readCb eventCb cbArg
    = ((i.val : ℤ), { srv with
        connections := Function.update srv.connections i
          (taken (srv.connections i) i
            { srv.freshBev msg.dest.IP with output := msg.text, enabled := true }
            msg readCb eventCb cbArg)
        nextSerial := srv.nextSerial + 1
        calls := srv.calls + 3 })
  := by
  have hpos : ¬ ((i.val : ℤ) < 0) := by omega
  rw [nodeConnectAndSendMessage, netConnectionCreate_of_slot hi, if_pos h.bevNew, if_pos h.malloc]
  simp only [hpos, if_false, setCallbacks_coe, NetServer.modify, Function.update_self,
    Function.update_idem]
  rw [nodeSendMessage_of_bev (b := srv.freshBev msg.dest.IP) (by simp [created])]
  simp only [h.printf, h.connect, if_true, Function.update_self, Function.update_idem]
  rfl

/-- A message that cannot be sent leads to a negative number. -/
theorem nodeConnectAndSendMessage_of_not_canSend {srv : NetServer D E A} (h : ¬ srv.CanSend)
    (msg : NodeMessage) (readCb : Option D) (eventCb : Option E) (cbArg : Option A) :
  (nodeConnectAndSendMessage srv msg readCb eventCb cbArg).1 = -1
  := by
  rw [nodeConnectAndSendMessage]
  cases hi : netEmptyConnectionSlot srv with
  | none =>
    simp only [netConnectionCreate, hi]
    rfl
  | some i =>
    have hpos : ¬ ((i.val : ℤ) < 0) := by omega
    rw [netConnectionCreate_of_slot hi]
    split_ifs with hbev hmalloc
    · simp only [hpos, if_false, setCallbacks_coe, NetServer.modify, Function.update_self,
        Function.update_idem]
      rw [nodeSendMessage_of_bev (b := srv.freshBev msg.dest.IP) (by simp [created])]
      dsimp only
      have hfails : ¬ ((srv.outcome (srv.calls + 1)).printf = true
          ∧ (srv.outcome (srv.calls + 1 + 1)).connect = true) := by
        rintro ⟨hprintf, hconnect⟩
        exact h ⟨⟨⟨i, netEmptyConnectionSlot_bev hi⟩, hbev, hmalloc⟩, hprintf, hconnect⟩
      by_cases hprintf : (srv.outcome (srv.calls + 1)).printf = true
      · have hconnect : ¬ (srv.outcome (srv.calls + 1 + 1)).connect = true :=
          fun hconnect => hfails ⟨hprintf, hconnect⟩
        simp [hprintf, hconnect]
      · simp [hprintf]
    · rfl
    · rfl

/-- A message that cannot be sent leaves no connection that is open in its slot. -/
theorem disabled_of_not_canSend {srv : NetServer D E A} (h : ¬ srv.CanSend)
    {i : Fin maxOpenConnections} (hi : netEmptyConnectionSlot srv = some i) {msg : NodeMessage}
    {readCb : Option D} {eventCb : Option E} {cbArg : Option A} {b : Bufferevent}
    (hb : ((nodeConnectAndSendMessage srv msg readCb eventCb cbArg).2.connections i).bev = some b) :
  b.enabled = false
  := by
  have hfails := nodeConnectAndSendMessage_of_not_canSend h msg readCb eventCb cbArg
  have hattempt := nodeConnectAndSendMessage_attempt srv msg readCb eventCb cbArg
  generalize nodeConnectAndSendMessage srv msg readCb eventCb cbArg = sent at hfails hattempt hb
  cases hattempt with
  | none calls =>
    rw [netEmptyConnectionSlot_bev hi] at hb
    cases hb
  | @lost j hj calls =>
    obtain rfl := Option.some.inj (hi.symm.trans hj)
    simp at hb
  | @refused j hj calls =>
    obtain rfl := Option.some.inj (hi.symm.trans hj)
    simp at hb
  | @unsent j hj calls =>
    obtain rfl := Option.some.inj (hi.symm.trans hj)
    simp only [Function.update_self, taken, Option.some.injEq] at hb
    rw [← hb]
    rfl
  | @sent j hj calls =>
    exact absurd hfails (by simp only; omega)

theorem isEnabled_of_not_canSend {net : NodeNet} (h : ¬ net.CanSend)
    {i : Fin maxOpenConnections} (hi : netEmptyConnectionSlot net = some i) (msg : NodeMessage)
    (readCb : Option DataCb) (eventCb : Option EventCb) (cbArg : Option CbArg) :
  NodeNet.isEnabled (nodeConnectAndSendMessage net msg readCb eventCb cbArg).2 i = false
  := by
  cases hb : ((nodeConnectAndSendMessage net msg readCb eventCb cbArg).2.connections i).bev with
  | none =>
    rw [NodeNet.isEnabled, hb]
    rfl
  | some b =>
    rw [NodeNet.isEnabled_of_bev hb]
    exact disabled_of_not_canSend h hi hb

theorem Attempt.crashed {srv : NetServer D E A} {msg : NodeMessage} {readCb : Option D}
    {eventCb : Option E} {cbArg : Option A} {r : ℤ × NetServer D E A}
    (h : Attempt srv msg readCb eventCb cbArg r) :
  r.2.crashed = srv.crashed
  := by
  cases h <;> rfl

/-- What has been sent or not: a message, on a connection that is open, or a negative
number. -/
theorem nodeConnectAndSendMessage_cases (srv : NetServer D E A) (msg : NodeMessage)
    (readCb : Option D) (eventCb : Option E) (cbArg : Option A) :
  let r := nodeConnectAndSendMessage srv msg readCb eventCb cbArg
  r.2.crashed = srv.crashed
    ∧ ((srv.CanSend ∧ ∃ i b, r.1 = (i.val : ℤ) ∧ (r.2.connections i).bev = some b)
      ∨ (¬ srv.CanSend ∧ r.1 = -1))
  := by
  refine ⟨(nodeConnectAndSendMessage_attempt srv msg readCb eventCb cbArg).crashed, ?_⟩
  by_cases h : srv.CanSend
  · obtain ⟨i, hi⟩ := exists_netEmptyConnectionSlot h.slot
    left
    rw [nodeConnectAndSendMessage_of_canSend h hi]
    refine ⟨h, i, { srv.freshBev msg.dest.IP with output := msg.text, enabled := true }, rfl, ?_⟩
    simp [taken]
  · right
    exact ⟨h, nodeConnectAndSendMessage_of_not_canSend h msg readCb eventCb cbArg⟩

end

/-! ### The operations -/

/-- The operations that need a connection. -/
inductive ConnectionOp where
  | findSuccessorRemote (n : NodeInfo) (id : HashType) (cb : FoundCb)
  | getPredecessorRemote (n : NodeInfo) (cb : FoundCb)
  | notifyNode (n : NodeInfo)
  | checkNode (n : NodeInfo) (cb : CheckCb)
  | connectAndSendMessage (msg : NodeMessage) (readCb : Option DataCb) (eventCb : Option EventCb)
      (cbArg : Option CbArg)
  | netwConnectionCreate (IP : UInt32) (port : UInt16) (handlerId : ℤ)
  | listenEvt (peer : UInt32)
  deriving DecidableEq

/-- A process with the wrapper of its connection table. -/
structure Wrapped where
  process : NodeProcess
  netw : Netw

/-- The incoming handler of a node. -/
abbrev nodeIncomingHandler : ℤ → NodeNet → NodeNet :=
  incomingConnection .incomingReadCb .incomingEventCb .self

/-- What an operation does. -/
def ConnectionOp.run (w : Wrapped) : ConnectionOp → Wrapped
  | .findSuccessorRemote n id cb => { w with
      process := (nodeFindSuccessorRemote w.process n id cb).2 }
  | .getPredecessorRemote n cb => { w with process := nodeGetPredecessorRemote w.process n cb }
  | .notifyNode n => { w with process := nodeNotifyNode w.process n }
  | .checkNode n cb => { w with process := nodeCheckNode w.process n cb }
  | .connectAndSendMessage msg readCb eventCb cbArg => { w with
      process := { w.process with
        net := (nodeConnectAndSendMessage w.process.net msg readCb eventCb cbArg).2 } }
  | .netwConnectionCreate IP port handlerId =>
    let (_, netw, net) := netwNetConnectionCreate w.netw w.process.net IP port handlerId
    { process := { w.process with net := net }, netw := netw }
  | .listenEvt peer => { w with
      process := { w.process with net := listenEvtCb w.process.net peer nodeIncomingHandler } }

/-- The socket that an operation is called with. -/
def ConnectionOp.socket (w : Wrapped) : ConnectionOp → Option AcceptedSocket
  | .listenEvt peer => some (listenEvtCbSocket w.process.net peer nodeIncomingHandler).1
  | _ => none

/-- An operation is clean: it uses no buffer of a connection that is not open, it leaves the
node as it is, and the socket that it is called with is owned or closed. -/
structure FailsCleanly (w : Wrapped) (op : ConnectionOp) : Prop where
  buffers : (op.run w).process.net.crashed = false
  node : (op.run w).process.node = w.process.node
  socket : op.socket w ≠ some .dropped

/-- When an operation is clean. Those that look at the number of their connection always
are. -/
def ConnectionOp.Clean (w : Wrapped) : ConnectionOp → Prop
  | .notifyNode _ => w.process.net.CanSend
  | .netwConnectionCreate _ _ handlerId =>
    w.netw.Refuses handlerId ∨ w.process.net.CanCreate
  | .listenEvt _ => (∃ i, (w.process.net.connections i).bev = none)
      ∧ (w.process.net.outcome w.process.net.calls).bevNew = true
  | _ => True

section

variable {D E A : Type} {srv : NetServer D E A}

theorem netConnectionGetBuffer_neg (srv : NetServer D E A) :
  netConnectionGetBuffer srv (-1) = (none, srv)
  := rfl

theorem netConnectionGetBuffer_of_bev {i : Fin maxOpenConnections} {b : Bufferevent}
    (hb : (srv.connections i).bev = some b) :
  netConnectionGetBuffer srv i.val = (some (i, b), srv)
  := by
  rw [netConnectionGetBuffer]
  simp [hb]

@[simp]
theorem NetServer.write_crashed (srv : NetServer D E A) (i : Fin maxOpenConnections)
    (bytes : List UInt8) :
  (srv.write i bytes).crashed = srv.crashed
  := rfl

/-- The socket is dropped when there is no slot or no `bufferevent`. -/
theorem listenEvtCbSocket_cases (srv : NetServer D E A) (peer : UInt32) (readCb : D) (eventCb : E)
    (cbArg : A) :
  (listenEvtCb srv peer (incomingConnection readCb eventCb cbArg)).crashed = srv.crashed
    ∧ ((listenEvtCbSocket srv peer (incomingConnection readCb eventCb cbArg)).1 ≠ .dropped
      ↔ (∃ i, (srv.connections i).bev = none) ∧ (srv.outcome srv.calls).bevNew = true)
  := by
  cases hi : netEmptyConnectionSlot srv with
  | none =>
    have hfull := netEmptyConnectionSlot_eq_none.mp hi
    simp [listenEvtCb, listenEvtCbSocket, hi, hfull]
  | some i =>
    have hfree : ∃ i, (srv.connections i).bev = none := ⟨i, netEmptyConnectionSlot_bev hi⟩
    constructor
    · rw [listenEvtCb_of_slot hi]
      split_ifs <;> rfl
    · rw [listenEvtCbSocket]
      simp only [hi, hfree, NetServer.ask, true_and]
      by_cases hbev : (srv.outcome srv.calls).bevNew = true
      · by_cases hmalloc : (srv.outcome srv.calls).malloc = true <;> simp [hbev, hmalloc]
      · simp [hbev]

end

variable {w : Wrapped}

theorem NodeNet.findSuccessorRemote_crashed (net : NodeNet) (n : NodeInfo) (id : HashType)
    (cb : FoundCb) :
  (net.findSuccessorRemote n id cb).2.crashed = net.crashed
  := by
  have hneg : (-1 : ℤ) < 0 := by decide
  rw [NodeNet.findSuccessorRemote]
  dsimp only
  have hcases := nodeConnectAndSendMessage_cases net.ask.2 ((Request.findSuccessor id).message n)
    (some .nodeFoundRemoteCb) (some .nodeRemoteFindEvent)
    (some (.found { cb := cb, node := net.ask.1.node, hops := net.ask.1.hops }))
  generalize nodeConnectAndSendMessage net.ask.2 _ _ _ _ = sent at hcases ⊢
  obtain ⟨conn, net'⟩ := sent
  obtain ⟨hcrashed, ⟨-, i, b, rfl, hb⟩ | ⟨-, rfl⟩⟩ := hcases
  · have hpos : ¬ ((i.val : ℤ) < 0) := by omega
    rw [if_neg hpos]
    simp only [netConnectionGetBuffer_of_bev hb]
    exact hcrashed
  · rw [if_pos hneg]
    exact hcrashed

theorem NodeNet.notifyNode_crashed_iff (net : NodeNet) (self node : NodeInfo)
    (hrun : net.crashed = false) :
  (net.notifyNode self node).crashed = false ↔ net.CanSend
  := by
  rw [NodeNet.notifyNode]
  dsimp only
  have hcases := nodeConnectAndSendMessage_cases net
    ((Request.notify self.id self.port).message node) (none : Option DataCb)
    (some .nodeNotifyRepEvent) (some .self)
  generalize nodeConnectAndSendMessage net _ _ _ _ = sent at hcases ⊢
  obtain ⟨conn, net'⟩ := sent
  obtain ⟨hcrashed, ⟨hsend, i, b, rfl, hb⟩ | ⟨hsend, rfl⟩⟩ := hcases
  · simp only [netConnectionGetBuffer_of_bev hb]
    exact iff_of_true (hcrashed.trans hrun) hsend
  · simp only [netConnectionGetBuffer_neg]
    exact iff_of_false Bool.true_eq_false_eq_False hsend

theorem netwNetConnectionCreate_crashed_iff {D E A : Type} (w : Netw) (srv : NetServer D E A)
    (IP : UInt32) (port : UInt16) (handlerId : ℤ) (hrun : srv.crashed = false) :
  (netwNetConnectionCreate w srv IP port handlerId).2.2.crashed = false
    ↔ w.Refuses handlerId ∨ srv.CanCreate
  := by
  rw [netwNetConnectionCreate]
  by_cases href : w.Refuses handlerId
  · have hlock : w.lock.Refuses handlerId := href
    simp only [hlock, if_true, href, true_or, iff_true]
    exact hrun
  · have hlock : ¬ w.lock.Refuses handlerId := href
    simp only [hlock, if_false, href, false_or]
    have hcases := netConnectionCreate_cases srv IP port
    generalize netConnectionCreate srv IP port = made at hcases ⊢
    obtain ⟨conn, srv'⟩ := made
    obtain ⟨hcrashed, ⟨hcreate, i, b, rfl, hb⟩ | ⟨hcreate, rfl⟩⟩ := hcases
    · simp only [netConnectionGetBuffer_of_bev hb]
      refine iff_of_true ?_ hcreate
      split
      · exact hcrashed.trans hrun
      · exact hcrashed.trans hrun
    · simp only [netConnectionGetBuffer_neg]
      exact iff_of_false Bool.true_eq_false_eq_False hcreate

theorem failsCleanly_iff_parts {op : ConnectionOp} :
  FailsCleanly w op
    ↔ (op.run w).process.net.crashed = false ∧ op.socket w ≠ some .dropped
  := by
  have hnode : (op.run w).process.node = w.process.node := by
    cases op <;> rfl
  exact ⟨fun h => ⟨h.buffers, h.socket⟩, fun h => ⟨h.1, hnode, h.2⟩⟩

/-- Running out of connections is clean exactly when the operation looks at the number of its
connection or gets one, and an accepted socket gets a `bufferevent`. -/
theorem failsCleanly_iff (hrun : w.process.net.crashed = false) (op : ConnectionOp) :
  FailsCleanly w op ↔ op.Clean w
  := by
  have hnone : (none : Option AcceptedSocket) ≠ some .dropped := by
    intro h
    cases h
  have hsent (msg : NodeMessage) (readCb : Option DataCb) (eventCb : Option EventCb)
      (cbArg : Option CbArg) (net : NodeNet) (hnet : net.crashed = false) :
      (nodeConnectAndSendMessage net msg readCb eventCb cbArg).2.crashed = false :=
    (nodeConnectAndSendMessage_cases net msg readCb eventCb cbArg).1.trans hnet
  rw [failsCleanly_iff_parts]
  cases op with
  | findSuccessorRemote n id cb =>
    have hfind := NodeNet.findSuccessorRemote_crashed w.process.net n id cb
    exact iff_of_true ⟨hfind.trans hrun, hnone⟩ trivial
  | getPredecessorRemote n cb =>
    exact iff_of_true ⟨hsent _ _ _ _ w.process.net.ask.2 hrun, hnone⟩ trivial
  | notifyNode n =>
    have hnotify := NodeNet.notifyNode_crashed_iff w.process.net w.process.node.self n hrun
    exact ⟨fun h => hnotify.mp h.1, fun h => ⟨hnotify.mpr h, hnone⟩⟩
  | checkNode n cb =>
    exact iff_of_true ⟨hsent _ _ _ _ w.process.net hrun, hnone⟩ trivial
  | connectAndSendMessage msg readCb eventCb cbArg =>
    exact iff_of_true ⟨hsent msg readCb eventCb cbArg w.process.net hrun, hnone⟩ trivial
  | netwConnectionCreate IP port handlerId =>
    have hcreate := netwNetConnectionCreate_crashed_iff w.netw w.process.net IP port handlerId hrun
    exact ⟨fun h => hcreate.mp h.1, fun h => ⟨hcreate.mpr h, hnone⟩⟩
  | listenEvt peer =>
    obtain ⟨hcrashed, hdropped⟩ := listenEvtCbSocket_cases w.process.net peer DataCb.incomingReadCb
      EventCb.incomingEventCb CbArg.self
    have hsome : ConnectionOp.socket w (.listenEvt peer) ≠ some .dropped
        ↔ (listenEvtCbSocket w.process.net peer nodeIncomingHandler).1 ≠ .dropped :=
      not_congr Option.some_inj
    rw [hsome, hdropped]
    exact ⟨And.right, And.intro (hcrashed.trans hrun)⟩

/-- A process for whose connections no `bufferevent` is made. -/
def withoutBev : Wrapped where
  process := Process.boot NodeSelf.blank fun _ => { Outcome.fine with bevNew := false }
  netw := { numHandlers := 0, handlersLock := false, log := [] }

theorem failsCleanly_iff_withoutBev :
  FailsCleanly withoutBev (.notifyNode nullNode)
    ↔ ConnectionOp.Clean withoutBev (.notifyNode nullNode)
  := failsCleanly_iff rfl (.notifyNode nullNode)

/-- A notification uses a connection that was not made, and an accepted socket is dropped. -/
theorem notification_without_connection :
  ¬ ∀ (w : Wrapped) (op : ConnectionOp), w.process.net.crashed = false → FailsCleanly w op
  := by
  intro h
  have hbuffers := (h withoutBev (.notifyNode nullNode) rfl).buffers
  revert hbuffers
  decide +kernel
