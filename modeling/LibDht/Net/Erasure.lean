import LibDht.Net.Moves

/-!
# The connection table less what nobody has written

The answers of the environment carry what memory holds that nobody has written, and some of
it is kept in the arguments of callbacks: a record that a reply is to be filled in is not
cleared when it is allocated. Erasing a table puts zero in the place of all that. The
operations on the table do not look at it: they do to an erased table what they do to the
table, erased.
-/

/-- The answers of the environment, less what memory holds. -/
def Outcome.erased (o : Outcome) : Outcome :=
  { o with node := nullNode, hops := 0, byte := 0, tail := (0, 0, 0) }

@[simp] theorem Outcome.erased_bevNew (o : Outcome) : o.erased.bevNew = o.bevNew := rfl
@[simp] theorem Outcome.erased_malloc (o : Outcome) : o.erased.malloc = o.malloc := rfl
@[simp] theorem Outcome.erased_printf (o : Outcome) : o.erased.printf = o.printf := rfl
@[simp] theorem Outcome.erased_connect (o : Outcome) : o.erased.connect = o.connect := rfl
@[simp] theorem Outcome.erased_node (o : Outcome) : o.erased.node = nullNode := rfl
@[simp] theorem Outcome.erased_hops (o : Outcome) : o.erased.hops = 0 := rfl

section

variable {D E A : Type} (f : A → A)

/-- A slot, its argument erased. -/
def NetConnection.erased (c : NetConnection D E A) : NetConnection D E A :=
  { c with upperCbArg := c.upperCbArg.map f }

/-- A server, its arguments erased by `f`. -/
def NetServer.erased (srv : NetServer D E A) : NetServer D E A :=
  { srv with
    connections := fun i => (srv.connections i).erased f
    outcome := fun n => (srv.outcome n).erased }

@[simp]
theorem NetConnection.erased_bev (c : NetConnection D E A) :
  (c.erased f).bev = c.bev
  := rfl

namespace NetServer

variable {f} (srv : NetServer D E A)

@[simp] theorem erased_connections (i : Fin maxOpenConnections) :
  (srv.erased f).connections i = (srv.connections i).erased f := rfl
@[simp] theorem ask_erased : (srv.erased f).ask = (srv.ask.1.erased, srv.ask.2.erased f) := rfl
@[simp] theorem crash_erased : (srv.erased f).crash = srv.crash.erased f := rfl

/-- A change to a slot that does to the erased slot what it does to the slot. -/
theorem modify_erased {g g' : NetConnection D E A → NetConnection D E A}
    (i : Fin maxOpenConnections)
    (hg : g' ((srv.connections i).erased f) = (g (srv.connections i)).erased f) :
  (srv.erased f).modify i g' = (srv.modify i g).erased f
  := by
  have hconn := funext (Function.apply_update (fun _ c => c.erased f) srv.connections i
    (g (srv.connections i)))
  simp only [modify, erased, hg, hconn]

@[simp]
theorem modifyBev_erased (i : Fin maxOpenConnections) (g : Bufferevent → Bufferevent) :
  (srv.erased f).modifyBev i g = (srv.modifyBev i g).erased f
  := srv.modify_erased i rfl

@[simp]
theorem newBev_erased (i : Fin maxOpenConnections) (peer : UInt32) :
  (srv.erased f).newBev i peer = (srv.newBev i peer).erased f
  := by
  rw [newBev, srv.modify_erased i (g := fun c => { c with bev := some (srv.freshBev peer) }) rfl]
  rfl

@[simp]
theorem write_erased (i : Fin maxOpenConnections) (bytes : List UInt8) :
  (srv.erased f).write i bytes = (srv.write i bytes).erased f
  := srv.modifyBev_erased i _

end NetServer

/-! ### The connection table -/

section

variable {f} (srv : NetServer D E A)

@[simp]
theorem netEmptyConnectionSlot_erased :
  netEmptyConnectionSlot (srv.erased f) = netEmptyConnectionSlot srv
  := netEmptyConnectionSlot_congr fun _ => rfl

@[simp]
theorem netConnectionClose_erased (connection : ℤ) :
  netConnectionClose (srv.erased f) connection = (netConnectionClose srv connection).erased f
  := by
  rw [netConnectionClose, netConnectionClose]
  cases netSlot connection with
  | none => rfl
  | some i => exact srv.modify_erased i rfl

@[simp]
theorem netConnectionGetBuffer_erased (connection : ℤ) :
  netConnectionGetBuffer (srv.erased f) connection
    = Prod.map id (NetServer.erased f) (netConnectionGetBuffer srv connection)
  := by
  rw [netConnectionGetBuffer, netConnectionGetBuffer]
  cases netSlot connection with
  | none => rfl
  | some i =>
    simp only [NetServer.erased_connections, NetConnection.erased_bev]
    cases (srv.connections i).bev with
    | none => rfl
    | some b => rfl

/-- A setter that does to the erased slot what it does to the slot. -/
theorem netConnectionSet_erased {g g' : NetConnection D E A → NetConnection D E A} (connection : ℤ)
    (hg : ∀ i, connection = (i.val : ℤ) →
      g' ((srv.connections i).erased f) = (g (srv.connections i)).erased f) :
  netConnectionSet (srv.erased f) connection g'
    = Prod.map id (NetServer.erased f) (netConnectionSet srv connection g)
  := by
  rw [netConnectionSet, netConnectionSet]
  cases hi : netSlot connection with
  | none => rfl
  | some i =>
    dsimp only
    rw [srv.modify_erased i (hg i (netSlot_eq_some hi))]
    rfl

@[simp]
theorem netConnectionSetReadCb_erased (connection : ℤ) (cb : Option D) :
  netConnectionSetReadCb (srv.erased f) connection cb
    = Prod.map id (NetServer.erased f) (netConnectionSetReadCb srv connection cb)
  := netConnectionSet_erased srv connection fun _ _ => rfl

@[simp]
theorem netConnectionSetWriteCb_erased (connection : ℤ) (cb : Option D) :
  netConnectionSetWriteCb (srv.erased f) connection cb
    = Prod.map id (NetServer.erased f) (netConnectionSetWriteCb srv connection cb)
  := netConnectionSet_erased srv connection fun _ _ => rfl

@[simp]
theorem netConnectionSetEventCb_erased (connection : ℤ) (cb : Option E) :
  netConnectionSetEventCb (srv.erased f) connection cb
    = Prod.map id (NetServer.erased f) (netConnectionSetEventCb srv connection cb)
  := netConnectionSet_erased srv connection fun _ _ => rfl

@[simp]
theorem netConnectionSetCbArg_erased (connection : ℤ) (cbArg : Option A) :
  netConnectionSetCbArg (srv.erased f) connection (cbArg.map f)
    = Prod.map id (NetServer.erased f) (netConnectionSetCbArg srv connection cbArg)
  := netConnectionSet_erased srv connection fun _ _ => rfl

theorem netConnectionCreate_erased (IP : UInt32) (port : UInt16) :
  netConnectionCreate (srv.erased f) IP port
    = Prod.map id (NetServer.erased f) (netConnectionCreate srv IP port)
  := by
  rw [netConnectionCreate, netConnectionCreate, netEmptyConnectionSlot_erased]
  cases netEmptyConnectionSlot srv with
  | none => rfl
  | some i =>
    simp only [NetServer.ask_erased, NetServer.newBev_erased, Outcome.erased_bevNew,
      Outcome.erased_malloc]
    rw [((srv.ask.2).newBev i IP).modify_erased (g := fun c => { c with sin := (IP, port) }) i rfl]
    split_ifs
    · rfl
    · simp
    · rw [NetServer.modify_erased (g := fun c => { c with netCbArg := some i.val }) _ i rfl]
      rfl

@[simp]
theorem netConnectionActivate_erased (connection : ℤ) :
  netConnectionActivate (srv.erased f) connection
    = Prod.map id (NetServer.erased f) (netConnectionActivate srv connection)
  := by
  rw [netConnectionActivate, netConnectionActivate]
  cases netSlot connection with
  | none => rfl
  | some i =>
    simp only [NetServer.erased_connections, NetConnection.erased_bev, NetServer.ask_erased]
    cases (srv.connections i).bev with
    | none => rfl
    | some b =>
      by_cases hconnect : srv.ask.1.connect = true
      · simp [hconnect]
      · simp [hconnect]

@[simp]
theorem nodeSendMessage_erased (msg : NodeMessage) (connection : ℤ) :
  nodeSendMessage (srv.erased f) msg connection
    = Prod.map id (NetServer.erased f) (nodeSendMessage srv msg connection)
  := by
  rw [nodeSendMessage, nodeSendMessage, netConnectionGetBuffer_erased]
  rcases netConnectionGetBuffer srv connection with ⟨_ | ⟨i, b⟩, srv'⟩
  · rfl
  · by_cases hprintf : srv'.ask.1.printf = true
    · simp [hprintf]
    · simp [hprintf]

@[simp]
theorem setCallbacks_erased (connection : ℤ) (readCb : Option D) (eventCb : Option E)
    (cbArg : Option A) :
  setCallbacks (srv.erased f) connection readCb eventCb (cbArg.map f)
    = (setCallbacks srv connection readCb eventCb cbArg).erased f
  := by
  simp only [setCallbacks, Option.isSome_map]
  split_ifs <;> simp

/-- A message is sent on a new connection, no matter what memory holds. -/
theorem nodeConnectAndSendMessage_erased (msg : NodeMessage) (readCb : Option D)
    (eventCb : Option E) (cbArg : Option A) :
  nodeConnectAndSendMessage (srv.erased f) msg readCb eventCb (cbArg.map f)
    = Prod.map id (NetServer.erased f) (nodeConnectAndSendMessage srv msg readCb eventCb cbArg)
  := by
  rw [nodeConnectAndSendMessage, nodeConnectAndSendMessage, netConnectionCreate_erased]
  rcases netConnectionCreate srv msg.dest.IP msg.dest.port with ⟨connection, srv'⟩
  simp only [Prod.map_apply, id, setCallbacks_erased, nodeSendMessage_erased, Prod.map_fst,
    Prod.map_snd]
  split_ifs <;> rfl

@[simp]
theorem incomingConnection_erased (readCb : D) (eventCb : E) (cbArg : A) (connection : ℤ) :
  incomingConnection readCb eventCb (f cbArg) connection (srv.erased f)
    = (incomingConnection readCb eventCb cbArg connection srv).erased f
  := by
  have harg (srv' : NetServer D E A) :=
    netConnectionSetCbArg_erased (f := f) srv' connection (some cbArg)
  rw [incomingConnection, incomingConnection]
  simp only [netConnectionSetReadCb_erased, netConnectionSetEventCb_erased, Prod.map_snd]
  rw [Option.map_some] at harg
  rw [harg, Prod.map_snd, netConnectionGetBuffer_erased]
  rcases netConnectionGetBuffer _ connection with ⟨_ | ⟨i, b⟩, srv'⟩
  · rfl
  · simp

/-- A connection is accepted, no matter what memory holds. -/
theorem listenEvtCb_erased (peer : UInt32) (readCb : D) (eventCb : E) (cbArg : A) :
  listenEvtCb (srv.erased f) peer (incomingConnection readCb eventCb (f cbArg))
    = (listenEvtCb srv peer (incomingConnection readCb eventCb cbArg)).erased f
  := by
  rw [listenEvtCb, listenEvtCb, netEmptyConnectionSlot_erased]
  cases netEmptyConnectionSlot srv with
  | none => rfl
  | some i =>
    simp only [NetServer.ask_erased, NetServer.newBev_erased, Outcome.erased_bevNew,
      Outcome.erased_malloc]
    split_ifs
    · rfl
    · simp
    · rw [NetServer.modify_erased (g := fun c => { c with netCbArg := some i.val }) _ i rfl,
        incomingConnection_erased, NetServer.modifyBev_erased]

end

end

/-! ### The calls of a node -/

/-- What a reply is to be filled in, less its contents. -/
def NodeFoundCbData.erased (data : NodeFoundCbData) : NodeFoundCbData :=
  { data with node := nullNode, hops := 0 }

/-- The argument of a callback, erased. -/
def CbArg.erased : CbArg → CbArg
  | .found data => .found data.erased
  | arg => arg

/-- The connection table of a node, erased. -/
abbrev NodeNet.erased (net : NodeNet) : NodeNet :=
  NetServer.erased CbArg.erased net

section

variable (net : NodeNet)

theorem NodeNet.findSuccessorRemote_erased (n : NodeInfo) (i : HashType) (cb : FoundCb) :
  NodeNet.findSuccessorRemote net.erased n i cb
    = Prod.map id NodeNet.erased (net.findSuccessorRemote n i cb)
  := by
  rw [NodeNet.findSuccessorRemote, NodeNet.findSuccessorRemote]
  simp only [NetServer.ask_erased]
  generalize (Request.findSuccessor i).message n = msg
  have hsent := nodeConnectAndSendMessage_erased (f := CbArg.erased) net.ask.2 msg
    (some .nodeFoundRemoteCb) (some .nodeRemoteFindEvent)
    (some (.found { cb := cb, node := net.ask.1.node, hops := net.ask.1.hops }))
  simp only [Option.map_some, CbArg.erased, NodeFoundCbData.erased] at hsent
  simp only [hsent, Outcome.erased_node, Outcome.erased_hops]
  rcases nodeConnectAndSendMessage net.ask.2 _ _ _ _ with ⟨connection, sent⟩
  simp only [Prod.map_apply, id, netConnectionGetBuffer_erased]
  split_ifs
  · rfl
  · rcases netConnectionGetBuffer sent connection with ⟨_ | ⟨j, b⟩, net'⟩
    · rfl
    · simp

theorem NodeNet.getPredecessorRemote_erased (n : NodeInfo) (cb : FoundCb) :
  NodeNet.getPredecessorRemote net.erased n cb = (net.getPredecessorRemote n cb).erased
  := congrArg Prod.snd (nodeConnectAndSendMessage_erased (f := CbArg.erased) net.ask.2
    (Request.predecessor.message n) (some .nodeFoundRemoteCb) (some .nodeRemoteFindEvent)
    (some (.found { cb := cb, node := net.ask.1.node, hops := net.ask.1.hops })))

theorem NodeNet.notifyNode_erased (self n : NodeInfo) :
  NodeNet.notifyNode net.erased self n = (net.notifyNode self n).erased
  := by
  rw [NodeNet.notifyNode, NodeNet.notifyNode]
  have hsent := nodeConnectAndSendMessage_erased (f := CbArg.erased) net
    ((Request.notify self.id self.port).message n) (none : Option DataCb)
    (some EventCb.nodeNotifyRepEvent) (some .self)
  rw [Option.map_some, CbArg.erased] at hsent
  · dsimp only
    rw [hsent]
    rcases nodeConnectAndSendMessage net _ _ _ _ with ⟨connection, sent⟩
    simp only [Prod.map_apply, id, netConnectionGetBuffer_erased]
    rcases netConnectionGetBuffer sent connection with ⟨_ | ⟨j, b⟩, net'⟩
    · rfl
    · simp
  · rintro data ⟨⟩

theorem NodeNet.checkNode_erased (n : NodeInfo) (cb : CheckCb) :
  NodeNet.checkNode net.erased n cb = (net.checkNode n cb).erased
  := congrArg Prod.snd (nodeConnectAndSendMessage_erased (f := CbArg.erased) net
    (Request.alive.message n) (some .nodeCheckNodeReply) (some .nodeCheckNodeEvent)
    (some (.check cb)))

theorem NodeNet.successorFoundForRemote_erased (data : IncomingHandlerData) (succ : NodeInfo)
    (hops : Int16) :
  NodeNet.successorFoundForRemote net.erased data succ hops
    = (net.successorFoundForRemote data succ hops).erased
  := by
  rw [NodeNet.successorFoundForRemote, NodeNet.successorFoundForRemote,
    netConnectionGetBuffer_erased]
  rcases netConnectionGetBuffer net data.connection with ⟨_ | ⟨i, b⟩, net'⟩
  · rfl
  · simp

end
