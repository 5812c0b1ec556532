import LibDht.Net.Message
import LibDht.Node.Process
import LibDht.Wire.Reply

/-!
# The node on its connections

The callbacks that a node sets on connections, what it sends through the connection table,
and the handlers of what it receives. A process over the table does one thing at a time:
libevent calls back for a connection when data arrives on it, when its output is drained
and when something happens to it; connections are accepted, timers fire, and the
application calls.

The buffers are those of libevent: a read callback is called when new data arrives and the
input buffer holds at least the low watermark, and removing bytes from a buffer removes as
many as there are and never fails. Using a null pointer, or an argument as what it is not,
crashes the process, and it does nothing any more.
-/

/-! ### Callbacks of the node -/

/-- The data callbacks. Those of the application are known by numbers. -/
inductive DataCb where
  | nodeFoundRemoteCb
  | nodeCheckNodeReply
  | incomingReadCb
  | handleSuccRequest
  | handlePredRequest
  | handleAliveRequest
  | handleNotifRequest
  | handleNodeMessage
  | app (cb : ℕ)
  deriving DecidableEq, Repr

/-- The event callbacks. -/
inductive EventCb where
  | nodeRemoteFindEvent
  | nodeNotifyRepEvent
  | nodeCheckNodeEvent
  | incomingEventCb
  | incomingEventMsgCb
  | app (cb : ℕ)
  deriving DecidableEq, Repr

/-- The arguments of the callbacks: the node itself, what a reply is to be filled in, whom a
probe is for, and the header of a message for the application; and what has been freed. -/
inductive CbArg where
  | self
  | found (data : NodeFoundCbData)
  | check (cb : CheckCb)
  | msg (type : UInt8) (len : UInt32)
  | app (arg : ℕ)
  | freed
  deriving DecidableEq, Repr

/-- The connection table of a node. -/
abbrev NodeNet : Type :=
  NetServer DataCb EventCb CbArg

/-! ### Message types -/

/-- `S`: find the successor of an identifier. -/
abbrev msgTSuccReq : UInt8 := 83

/-- `P`: report the predecessor. -/
abbrev msgTPredReq : UInt8 := 80

/-- `N`: the sender may be the predecessor. -/
abbrev msgTNotif : UInt8 := 78

/-- `A`: report to be alive. -/
abbrev msgTAliveReq : UInt8 := 65

/-- `M`: a message for the application. -/
abbrev msgTNodeMsg : UInt8 := 77

/-- The length of an identifier. -/
abbrev idBytes : UInt32 := 4

/-! ### What a node sends -/

/-- The message that a request is sent with. Its content is none. -/
def Request.message (dest : NodeInfo) : Request → NodeMessage
  | .findSuccessor _ => { dest := dest, type := msgTSuccReq, len := idBytes, content := none }
  | .predecessor => { dest := dest, type := msgTPredReq, len := 0, content := none }
  | .notify _ _ => { dest := dest, type := msgTNotif, len := idBytes + 2, content := none }
  | .alive => { dest := dest, type := msgTAliveReq, len := 0, content := none }

/-- What the sender of a request adds behind the message. -/
def Request.body : Request → List UInt8
  | .findSuccessor id => u32.encode id
  | .notify id port => u32.encode id ++ u16.encode port
  | .predecessor | .alive => []

/-- The bytes of a request, as its sender writes them. -/
def Request.wire (r : Request) : List UInt8 :=
  (r.message nullNode).text ++ r.body

namespace NodeNet

/-- A slot goes on to point to an argument that is freed. -/
def dangle (arg : CbArg) (c : NetConnection DataCb EventCb CbArg) :
    NetConnection DataCb EventCb CbArg :=
  if c.upperCbArg = some arg then { c with upperCbArg := some .freed } else c

@[simp]
theorem dangle_bev (arg : CbArg) (c : NetConnection DataCb EventCb CbArg) :
  (dangle arg c).bev = c.bev
  := by
  rw [dangle]
  split <;> rfl

/-- Ask node `n` for the successor of `id`. -/
def findSuccessorRemote (net : NodeNet) (n : NodeInfo) (id : HashType) (cb : FoundCb) :
    ℤ × NodeNet :=
  let (o, net) := net.ask
  let msg := (Request.findSuccessor id).message n
  let (conn, net) := nodeConnectAndSendMessage net msg (some .nodeFoundRemoteCb)
    (some .nodeRemoteFindEvent) (some (.found { cb := cb, node := o.node, hops := o.hops }))
  if conn < 0 then (conn, net)
  else
    match netConnectionGetBuffer net conn with
    | (none, net) => (-1, net)
    | (some (i, _), net) => (0, net.write i (Request.findSuccessor id).body)

/-- Ask node `n` for its predecessor. -/
def getPredecessorRemote (net : NodeNet) (n : NodeInfo) (cb : FoundCb) : NodeNet :=
  let (o, net) := net.ask
  (nodeConnectAndSendMessage net (Request.predecessor.message n) (some .nodeFoundRemoteCb)
    (some .nodeRemoteFindEvent)
    (some (.found { cb := cb, node := o.node, hops := o.hops }))).2

/-- Notify `node` of the existence of the node `self`. Nothing is set to read a reply, and
the connection is used without asking whether there is one. -/
def notifyNode (net : NodeNet) (self node : NodeInfo) : NodeNet :=
  let request := Request.notify self.id self.port
  let (conn, net) := nodeConnectAndSendMessage net (request.message node) none
    (some .nodeNotifyRepEvent) (some .self)
  match netConnectionGetBuffer net conn with
  | (none, net) => net.crash
  | (some (i, _), net) => net.write i request.body

/-- Ask `node` whether it is alive. The argument of the callbacks is allocated with the size of a
pointer to it, `sizeof(nc_arg)`, and is taken to fit: no block of `malloc` is smaller than the
three pointers that it holds. -/
def checkNode (net : NodeNet) (node : NodeInfo) (cb : CheckCb) : NodeNet :=
  (nodeConnectAndSendMessage net (Request.alive.message node) (some .nodeCheckNodeReply)
    (some .nodeCheckNodeEvent) (some (.check cb))).2

/-- Write the answer to a lookup to the slot that its request came in on. -/
def successorFoundForRemote (net : NodeNet) (data : IncomingHandlerData) (succ : NodeInfo)
    (hops : Int16) : NodeNet :=
  match netConnectionGetBuffer net data.connection with
  | (none, net) => net.crash
  | (some (i, _), net) => net.write i (successorReply succ (hops + 1))

end NodeNet

instance : Remote NodeNet where
  eventNew net := (net.outcome net.calls).eventNew
  findSuccessorRemote net _ n id cb := net.findSuccessorRemote n id cb
  getPredecessorRemote net _ n cb := net.getPredecessorRemote n cb
  notifyNode net self n := net.notifyNode self.self n
  checkNode net _ n cb := net.checkNode n cb
  successorFoundForRemote net data succ hops := net.successorFoundForRemote data succ hops
  useFreed net := net.crash

/-- The process of a node over its connection table. -/
abbrev NodeProcess : Type :=
  Process NodeNet

namespace Process

def crash (p : NodeProcess) : NodeProcess :=
  { p with net := p.net.crash }

def close (p : NodeProcess) (connection : ℤ) : NodeProcess :=
  { p with net := netConnectionClose p.net connection }

/-- The argument of a callback is freed. -/
def free (p : NodeProcess) (connection : ℤ) (arg : CbArg) : NodeProcess :=
  { p with net := (netConnectionSet p.net connection (NodeNet.dangle arg)).2 }

/-- The input buffer of the slot `i` is what is left of it. -/
def setInput (p : NodeProcess) (i : Fin maxOpenConnections) (rest : List UInt8) : NodeProcess :=
  { p with net := p.net.modifyBev i fun b => { b with input := rest } }

/-- What memory holds that nobody has written. -/
def ask (p : NodeProcess) : Outcome × NodeProcess :=
  (p.net.ask.1, { p with net := p.net.ask.2 })

/-- The use of a buffer of a connection. -/
def withBuffer (p : NodeProcess) (connection : ℤ)
    (f : NodeProcess → Fin maxOpenConnections → Bufferevent → NodeProcess) : NodeProcess :=
  match netConnectionGetBuffer p.net connection with
  | (none, net) => { p with net := net.crash }
  | (some (i, b), net) => f { p with net := net } i b

@[simp] theorem crash_log (p : NodeProcess) : p.crash.log = p.log := rfl
@[simp] theorem close_net (p : NodeProcess) (connection : ℤ) :
  (p.close connection).net = netConnectionClose p.net connection := rfl
@[simp] theorem close_log (p : NodeProcess) (connection : ℤ) :
  (p.close connection).log = p.log := rfl
@[simp] theorem free_net (p : NodeProcess) (connection : ℤ) (arg : CbArg) :
  (p.free connection arg).net
    = (netConnectionSet p.net connection (NodeNet.dangle arg)).2 := rfl
@[simp] theorem close_node (p : NodeProcess) (connection : ℤ) :
  (p.close connection).node = p.node := rfl
@[simp] theorem free_node (p : NodeProcess) (connection : ℤ) (arg : CbArg) :
  (p.free connection arg).node = p.node := rfl
@[simp] theorem free_log (p : NodeProcess) (connection : ℤ) (arg : CbArg) :
  (p.free connection arg).log = p.log := rfl
@[simp] theorem ask_net (p : NodeProcess) : p.ask.2.net = p.net.ask.2 := rfl
@[simp] theorem ask_node (p : NodeProcess) : p.ask.2.node = p.node := rfl
@[simp] theorem ask_log (p : NodeProcess) : p.ask.2.log = p.log := rfl
@[simp] theorem setInput_node (p : NodeProcess) (i : Fin maxOpenConnections) (rest : List UInt8) :
  (p.setInput i rest).node = p.node := rfl
@[simp] theorem setInput_log (p : NodeProcess) (i : Fin maxOpenConnections) (rest : List UInt8) :
  (p.setInput i rest).log = p.log := rfl

/-- Nothing but the input of the connection changes in its slot. -/
theorem setInput_connections_self (p : NodeProcess) (i : Fin maxOpenConnections)
    (rest : List UInt8) :
  (p.setInput i rest).net.connections i
    = { p.net.connections i with
        bev := (p.net.connections i).bev.map fun b => { b with input := rest } }
  := Function.update_self ..

end Process

/-! ### Reading replies -/

/-- The reply to a request for a node. The connection is closed, and what the reply was
filled in is handed to its callback and then freed. The slot, which is empty, points to it
no matter which comes first. -/
def nodeFoundRemoteCb (p : NodeProcess) (connection : ℤ) : Option CbArg → NodeProcess
  | some (.found data) =>
    p.withBuffer connection fun p _ b =>
      let (o, p) := p.ask
      let (node, hops) := readFound (data.node, data.hops) o.byte b.input
      let p := p.emit (.replyRead b.serial)
      let p := p.close connection
      let p := p.free connection (.found data)
      nodeFound p { cb := data.cb, node := node, hops := hops }
  | _ => p.crash

/-- The reply to a liveness probe. A line that has not arrived whole is a null pointer. -/
def nodeCheckNodeReply (p : NodeProcess) (connection : ℤ) : Option CbArg → NodeProcess
  | some (.check cb) =>
    p.withBuffer connection fun p _ b =>
      match readln b.input with
      | none => p.crash
      | some token =>
        let p := nodeCheckResult p cb (token.headD 0 == replyYes)
        (p.close connection).free connection (.check cb)
  | _ => p.crash

/-! ### Handling requests -/

/-- Find a successor for another node. -/
def handleSuccRequest (p : NodeProcess) (connection : ℤ) : Option CbArg → NodeProcess
  | some .self =>
    p.withBuffer connection fun p i b =>
      let (o, p) := p.ask
      let (rId, rest) := u32.fill o.node.id b.input
      let p := p.setInput i rest
      let p := p.emit (.handled connection (.findSuccessor rId) b.input.length)
      (nodeFindSuccessor p rId (.successorFoundForRemote
        { connection := connection, asker := p.net.serialAt connection })).2
  | _ => p.crash

/-- Report the predecessor to another node. -/
def handlePredRequest (p : NodeProcess) (connection : ℤ) : Option CbArg → NodeProcess
  | some .self =>
    p.withBuffer connection fun p i b =>
      let p := p.emit (.handled connection .predecessor b.input.length)
      { p with net := p.net.write i (predecessorReply p.node) }
  | _ => p.crash

/-- Report to be alive. -/
def handleAliveRequest (p : NodeProcess) (connection : ℤ) : Option CbArg → NodeProcess
  | some .self =>
    p.withBuffer connection fun p i b =>
      let (o, p) := p.ask
      let p := p.emit (.handled connection .alive b.input.length)
      { p with net := p.net.write i (aliveReply o.tail) }
  | _ => p.crash

/-- Take another node as predecessor. Its address is the one the connection comes from; when
there is none, its other fields are not read. -/
def handleNotifRequest (p : NodeProcess) (connection : ℤ) : Option CbArg → NodeProcess
  | some .self =>
    p.withBuffer connection fun p i b =>
      let (o, p) := p.ask
      if b.peer == 0 then
        let p := p.emit (.handled connection (.notify o.node.id o.node.port) b.input.length)
        let p := p.close connection
        let p := { p with node := nodeNotified p.node ⟨o.node.id, 0, o.node.port⟩ }
        p.close connection
      else
        let (id, rest) := u32.fill o.node.id b.input
        let (port, rest) := u16.fill o.node.port rest
        let p := p.setInput i rest
        let p := p.emit (.handled connection (.notify id port) b.input.length)
        let p := { p with node := nodeNotified p.node ⟨id, b.peer, port⟩ }
        p.close connection
  | _ => p.crash

/-- Hand a message to the handler of the application. -/
def handleNodeMessage (p : NodeProcess) (connection : ℤ) : Option CbArg → NodeProcess
  | some (.msg type len) =>
    let available := ((netConnectionGetBuffer p.net connection).1.map (·.2.input.length)).getD 0
    let p := p.emit (.nodeMessage p.node.msgCb p.node.msgCbArg connection type len available)
    p.free connection (.msg type len)
  | _ => p.crash

/-- The body of a message has not arrived whole: its handler is set as the read callback. -/
def deferBody (p : NodeProcess) (connection : ℤ) (type : UInt8) (len : UInt32) : NodeProcess :=
  let setReadCb (cb : DataCb) := { p with
    net := (netConnectionSetReadCb p.net connection (some cb)).2 }
  if type = msgTSuccReq then setReadCb .handleSuccRequest
  else if type = msgTPredReq then setReadCb .handlePredRequest
  else if type = msgTAliveReq then setReadCb .handleAliveRequest
  else if type = msgTNotif then setReadCb .handleNotifRequest
  else if type = msgTNodeMsg then
    let p := setReadCb .handleNodeMessage
    let net := (netConnectionSetEventCb p.net connection (some .incomingEventMsgCb)).2
    { p with net := (netConnectionSetCbArg net connection (some (.msg type len))).2 }
  else p

/-- The whole message is in the buffer: its handler is called. -/
def handleBody (p : NodeProcess) (connection : ℤ) (type : UInt8) (len : UInt32) : NodeProcess :=
  if type = msgTSuccReq then handleSuccRequest p connection (some .self)
  else if type = msgTPredReq then handlePredRequest p connection (some .self)
  else if type = msgTAliveReq then handleAliveRequest p connection (some .self)
  else if type = msgTNotif then handleNotifRequest p connection (some .self)
  else if type = msgTNodeMsg then handleNodeMessage p connection (some (.msg type len))
  else p

/-- The first data on an accepted connection: read the header of a message. -/
def incomingReadCb (p : NodeProcess) (connection : ℤ) : Option CbArg → NodeProcess
  | some .self =>
    p.withBuffer connection fun p i b =>
      let (o, p) := p.ask
      let ((type, len), rest) := nodeParseMessageHeader o.byte b.input
      let p := p.setInput i rest
      if rest.length < len.toNat then
        let p := deferBody p connection type len
        { p with net := p.net.modifyBev i fun b => { b with low := len.toNat } }
      else handleBody p connection type len
  | _ => p.crash

/-! ### Events of connections -/

/-- `BEV_EVENT_EOF`. -/
abbrev bevEventEof : UInt16 := 0x10

/-- `BEV_EVENT_ERROR`. -/
abbrev bevEventError : UInt16 := 0x20

/-- `BEV_EVENT_TIMEOUT`. -/
abbrev bevEventTimeout : UInt16 := 0x40

/-- `BEV_ERROR`: a result of filters, with the value of `BEV_EVENT_WRITING`. -/
abbrev bevError : UInt16 := 0x02

/-- An event on a connection that a notification was sent on. -/
def nodeNotifyRepEvent (p : NodeProcess) (connection : ℤ) (what : UInt16) :
    Option CbArg → NodeProcess
  | some .self =>
    if what &&& (bevEventEof ||| bevEventError ||| bevEventTimeout) ≠ 0 then p.close connection
    else p
  | _ => p.crash

/-- An event on a connection that a probe was sent on. -/
def nodeCheckNodeEvent (p : NodeProcess) (connection : ℤ) (what : UInt16) :
    Option CbArg → NodeProcess
  | some (.check cb) =>
    if what &&& (bevEventEof ||| bevEventError ||| bevEventTimeout) ≠ 0 then
      let p :=
        if what &&& (bevEventError ||| bevEventTimeout) ≠ 0 then nodeCheckResult p cb false else p
      (p.close connection).free connection (.check cb)
    else p
  | _ => p.crash

/-- An event on an accepted connection. -/
def incomingEventCb (p : NodeProcess) (connection : ℤ) (what : UInt16) :
    Option CbArg → NodeProcess
  | some .self => if what &&& (bevError ||| bevEventEof) ≠ 0 then p.close connection else p
  | _ => p.crash

/-- An event on an accepted connection that waits for a message to the application. -/
def incomingEventMsgCb (p : NodeProcess) (connection : ℤ) (what : UInt16) :
    Option CbArg → NodeProcess
  | some (.msg _ _) => if what &&& (bevError ||| bevEventEof) ≠ 0 then p.close connection else p
  | _ => p.crash

/-! ### What happens to a process -/

/-- The call of a data callback. -/
def runDataCb (p : NodeProcess) : Option (DataCb × ℤ × Option CbArg) → NodeProcess
  | some (.nodeFoundRemoteCb, connection, arg) => nodeFoundRemoteCb p connection arg
  | some (.nodeCheckNodeReply, connection, arg) => nodeCheckNodeReply p connection arg
  | some (.incomingReadCb, connection, arg) => incomingReadCb p connection arg
  | some (.handleSuccRequest, connection, arg) => handleSuccRequest p connection arg
  | some (.handlePredRequest, connection, arg) => handlePredRequest p connection arg
  | some (.handleAliveRequest, connection, arg) => handleAliveRequest p connection arg
  | some (.handleNotifRequest, connection, arg) => handleNotifRequest p connection arg
  | some (.handleNodeMessage, connection, arg) => handleNodeMessage p connection arg
  | some (.app _, _, _) => p
  | none => p

/-- The call of an event callback. Nothing is done about a request that failed. -/
def runEventCb (p : NodeProcess) (what : UInt16) :
    Option (EventCb × ℤ × Option CbArg) → NodeProcess
  | some (.nodeRemoteFindEvent, _, _) => p
  | some (.nodeNotifyRepEvent, connection, arg) => nodeNotifyRepEvent p connection what arg
  | some (.nodeCheckNodeEvent, connection, arg) => nodeCheckNodeEvent p connection what arg
  | some (.incomingEventCb, connection, arg) => incomingEventCb p connection what arg
  | some (.incomingEventMsgCb, connection, arg) => incomingEventMsgCb p connection what arg
  | some (.app _, _, _) => p
  | none => p

/-- Bytes arrive on the connection in the slot `i`. -/
def arrive (p : NodeProcess) (i : Fin maxOpenConnections) (bytes : List UInt8) : NodeProcess :=
  match (p.net.connections i).bev with
  | some b =>
    if p.net.crashed || !b.enabled || bytes.isEmpty then p
    else
      let input := b.input ++ bytes
      let p := p.setInput i input
      if input.length < b.low then p else runDataCb p (netConnectionReadCb p.net i.val)
  | none => p

/-- What happens to a process: on its connections, at its listener and its timers, and the
calls of the application. -/
inductive Occurrence where
  | data (i : Fin maxOpenConnections) (bytes : List UInt8)
  | drained (i : Fin maxOpenConnections)
  | event (i : Fin maxOpenConnections) (what : UInt16)
  | accept (peer : UInt32)
  | stabilise
  | fixFingers
  | checkPred
  | checkSuccs
  | updateSuccs
  | setNodeMsgHandler (nodeMsgCb cbArg : ℕ)
  | joined (joinedCbArg : ℕ)
  | networkCreate (joinedCbArg : ℕ)
  | networkJoin (node : NodeInfo) (joinedCbArg : ℕ)
  | findSuccessor (id : HashType) (arg : ℕ)
  | connectAndSend (msg : NodeMessage) (readCb eventCb cbArg : Option ℕ)
  | send (msg : NodeMessage) (connection : ℤ)
  | create (IP : UInt32) (port : UInt16)
  | setReadCb (connection : ℤ) (cb : Option ℕ)
  | setWriteCb (connection : ℤ) (cb : Option ℕ)
  | setEventCb (connection : ℤ) (cb : Option ℕ)
  | setCbArg (connection : ℤ) (cbArg : Option ℕ)
  | close (connection : ℤ)

/-- The connection in the slot `i` has callbacks called. -/
def NodeNet.isEnabled (net : NodeNet) (i : Fin maxOpenConnections) : Bool :=
  (net.connections i).bev.any Bufferevent.enabled

theorem NodeNet.isEnabled_of_bev {net : NodeNet} {i : Fin maxOpenConnections} {b : Bufferevent}
    (hb : (net.connections i).bev = some b) :
  net.isEnabled i = b.enabled
  := by
  rw [NodeNet.isEnabled, hb, Option.any_some]

/-- What a process does that has not crashed. -/
def Occurrence.handle (p : NodeProcess) : Occurrence → NodeProcess
  | .data i bytes => arrive p i bytes
  | .drained i =>
    if p.net.isEnabled i then runDataCb p (netConnectionWriteCb p.net i.val) else p
  | .event i what =>
    if p.net.isEnabled i then runEventCb p what (netConnectionEventCb p.net i.val) else p
  | .accept peer =>
    let handler := incomingConnection .incomingReadCb .incomingEventCb .self
    { p with net := listenEvtCb p.net peer handler }
  | .stabilise => nodeNetworkStabalize p
  | .fixFingers => nodeFixFingers p
  | .checkPred => nodeCheckPredecessor p
  | .checkSuccs => nodeCheckSuccessors p
  | .updateSuccs => nodeUpdateSuccs p
  | .setNodeMsgHandler nodeMsgCb cbArg => nodeSetNodeMsgHandler p nodeMsgCb cbArg
  | .joined arg => nodeNetworkJoined p arg
  | .networkCreate arg => (nodeNetworkCreate p arg).2
  | .networkJoin node arg => nodeNetworkJoin p node arg
  | .findSuccessor id arg => (nodeFindSuccessor p id (.app arg)).2
  | .connectAndSend msg readCb eventCb cbArg =>
    { p with
      net := (nodeConnectAndSendMessage p.net msg (readCb.map .app) (eventCb.map .app)
        (cbArg.map .app)).2 }
  | .send msg connection => { p with net := (nodeSendMessage p.net msg connection).2 }
  | .create IP port => { p with net := (netConnectionCreate p.net IP port).2 }
  | .setReadCb connection cb =>
    { p with net := (netConnectionSetReadCb p.net connection (cb.map .app)).2 }
  | .setWriteCb connection cb =>
    { p with net := (netConnectionSetWriteCb p.net connection (cb.map .app)).2 }
  | .setEventCb connection cb =>
    { p with net := (netConnectionSetEventCb p.net connection (cb.map .app)).2 }
  | .setCbArg connection cbArg =>
    { p with net := (netConnectionSetCbArg p.net connection (cbArg.map .app)).2 }
  | .close connection => p.close connection

namespace Process

/-- One thing happens to a process. -/
def occur (p : NodeProcess) (o : Occurrence) : NodeProcess :=
  if p.net.crashed then p else o.handle p

theorem occur_of_running {p : NodeProcess} (h : p.net.crashed = false) (o : Occurrence) :
  p.occur o = o.handle p
  := by
  rw [occur, h, if_neg Bool.false_ne_true]

/-- A run of a process. -/
def runIo (p : NodeProcess) (os : List Occurrence) : NodeProcess :=
  os.foldl occur p

/-- The process of a node that has just been created. -/
def boot (s : NodeSelf) (outcome : ℕ → Outcome) : NodeProcess :=
  { node := s, net := NetServer.empty outcome, succsLock := false, log := [] }

/-- The segments of a stream arrive one after another on the connection with a serial. They
are lost when it is not in its slot any more. -/
def deliver (p : NodeProcess) (i : Fin maxOpenConnections) (serial : ℕ) (segments : List (List UInt8)) :
    NodeProcess :=
  segments.foldl (fun p bytes =>
    if p.net.serialAt i.val = some serial then arrive p i bytes else p) p

end Process
