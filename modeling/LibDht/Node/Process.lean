import LibDht.Node.Self

/-!
# The operations of a node

A node's process consists of its state, of the mutex `succs_lock` and of the network it
sends through. The network is a parameter: `Remote ν` lists what the operations of a node
do to it, so that they can be run over the connection table of one process and over
messages in flight between many.

A callback and its argument are one value, of type `FoundCb` or `CheckCb`; a callback of
the application is known by a number, and what the application does in it is not part of
the process. The log records what a run did: every callback invoked, every request tried
and the callback it was to be answered to, every index `self->successor` was read or
written at, and every use of the mutex.
-/

/-- What a lookup that came in on a connection is answered through:
`struct incoming_handler_data`. The field `asker` is not in the source: it identifies the
connection that occupied the slot `connection` when the request was handled. -/
structure IncomingHandlerData where
  connection : ℤ
  asker : Option ℕ
  deriving DecidableEq, Repr

/-- The callbacks a found node is handed to, with their arguments; and one whose argument has
been freed. -/
inductive FoundCb where
  | networkJoinSuccFound (joinedCbArg : ℕ)
  | stabilizeSpFound
  | updateSuccsFound (succNum : ℤ)
  | fingerUpdate (fingerNum : Fin idBits)
  | successorFoundForRemote (data : IncomingHandlerData)
  | app (arg : ℕ)
  | freed
  deriving DecidableEq, Repr

/-- What a callback of a lookup is once it has been called: `finger_update` and
`node_successor_found_for_remote` free their argument. -/
def FoundCb.called : FoundCb → FoundCb
  | .fingerUpdate _ | .successorFoundForRemote _ => .freed
  | cb => cb

/-- The callbacks the result of a liveness probe is handed to, with their arguments. -/
inductive CheckCb where
  | predResult
  | succResult (sn : ℤ)
  deriving DecidableEq, Repr

/-- A found node on its way to a callback: `struct node_found_cb_data`. -/
structure NodeFoundCbData where
  cb : FoundCb
  node : NodeInfo
  hops : Int16
  deriving DecidableEq, Repr

/-- What a message handler of the process decoded. -/
inductive Request where
  | findSuccessor (id : HashType)
  | predecessor
  | alive
  | notify (id : HashType) (port : UInt16)
  deriving DecidableEq, Repr

/-- What a run of a process did. `handled` is the entry of a request handler on a
connection, with the request it decoded and the number of body bytes it found; `replyRead`
is the reading of the reply that came on the connection with a serial. -/
inductive Event where
  | lock (held : Bool)
  | unlock (held : Bool)
  | succIndex (i : ℤ)
  | found (cb : FoundCb) (node : NodeInfo) (hops : Int16)
  | asked (cb : FoundCb) (rc : ℤ)
  | probed (cb : CheckCb)
  | checked (cb : CheckCb) (success : Bool)
  | joinActivated (joinedCbArg : ℕ)
  | joined (joinedCbArg : ℕ)
  | handled (connection : ℤ) (request : Request) (available : ℕ)
  | nodeMsgHandler (cb cbArg : ℕ)
  | nodeMessage (cb cbArg : ℕ) (connection : ℤ) (type : UInt8) (len : UInt32) (available : ℕ)
  | replyRead (serial : ℕ)
  deriving DecidableEq, Repr

/-- An event of the mutex, or the use of one of the indices `is`. -/
def Event.Reads (is : List ℤ) : Event → Prop
  | .lock _ | .unlock _ => True
  | .succIndex i => i ∈ is
  | _ => False

/-- What the operations of a node do to the network they send through. A request that could
not be sent returns a negative number. The use of what has been freed, as what it was, is among
them: it is the end of the process that sends. -/
class Remote (ν : Type) where
  eventNew : ν → Bool
  findSuccessorRemote : ν → NodeSelf → NodeInfo → HashType → FoundCb → ℤ × ν
  getPredecessorRemote : ν → NodeSelf → NodeInfo → FoundCb → ν
  notifyNode : ν → NodeSelf → NodeInfo → ν
  checkNode : ν → NodeSelf → NodeInfo → CheckCb → ν
  successorFoundForRemote : ν → IncomingHandlerData → NodeInfo → Int16 → ν
  useFreed : ν → ν

/-- A running node. -/
structure Process (ν : Type) where
  node : NodeSelf
  net : ν
  succsLock : Bool
  log : List Event

namespace Process

variable {ν : Type}

def emit (p : Process ν) (e : Event) : Process ν :=
  { p with log := p.log ++ [e] }

/-- `pthread_mutex_lock(&(self->succs_lock))`. -/
def lock (p : Process ν) : Process ν :=
  { p.emit (.lock p.succsLock) with succsLock := true }

/-- `pthread_mutex_unlock(&(self->succs_lock))`. -/
def unlock (p : Process ν) : Process ν :=
  { p.emit (.unlock p.succsLock) with succsLock := false }

/-- The use of the index `i` on `self->successor`. -/
def touch (p : Process ν) (i : ℤ) : Process ν :=
  p.emit (.succIndex i)

/-- `self->successor[i] = n`. -/
def setSucc (p : Process ν) (i : ℤ) (n : NodeInfo) : Process ν :=
  { p.touch i with node := p.node.setSuccessor i n }

variable (p : Process ν)

@[simp] theorem emit_node (e : Event) : (p.emit e).node = p.node := rfl
@[simp] theorem emit_net (e : Event) : (p.emit e).net = p.net := rfl
@[simp] theorem emit_log (e : Event) : (p.emit e).log = p.log ++ [e] := rfl
@[simp] theorem lock_node : p.lock.node = p.node := rfl
@[simp] theorem lock_net : p.lock.net = p.net := rfl
@[simp] theorem lock_log : p.lock.log = p.log ++ [.lock p.succsLock] := rfl
@[simp] theorem unlock_node : p.unlock.node = p.node := rfl
@[simp] theorem unlock_net : p.unlock.net = p.net := rfl
@[simp] theorem unlock_log : p.unlock.log = p.log ++ [.unlock p.succsLock] := rfl
@[simp] theorem touch_node (i : ℤ) : (p.touch i).node = p.node := rfl
@[simp] theorem touch_net (i : ℤ) : (p.touch i).net = p.net := rfl
@[simp] theorem touch_log (i : ℤ) : (p.touch i).log = p.log ++ [.succIndex i] := rfl
@[simp] theorem setSucc_node (i : ℤ) (n : NodeInfo) :
  (p.setSucc i n).node = p.node.setSuccessor i n := rfl
@[simp] theorem setSucc_net (i : ℤ) (n : NodeInfo) : (p.setSucc i n).net = p.net := rfl
@[simp] theorem setSucc_log (i : ℤ) (n : NodeInfo) :
  (p.setSucc i n).log = p.log ++ [.succIndex i] := rfl

end Process

section Operations

variable {ν : Type} [Remote ν]

/-! ### Requests and replies -/

/-- Ask node `n` for the successor of `id`. -/
def nodeFindSuccessorRemote (p : Process ν) (n : NodeInfo) (id : HashType) (cb : FoundCb) :
    ℤ × Process ν :=
  let (rc, net) := Remote.findSuccessorRemote p.net p.node n id cb
  (rc, { p.emit (.asked cb rc) with net := net })

/-- Ask node `n` for its predecessor. -/
def nodeGetPredecessorRemote (p : Process ν) (n : NodeInfo) (cb : FoundCb) : Process ν :=
  { p.emit (.asked cb 0) with net := Remote.getPredecessorRemote p.net p.node n cb }

/-- Notify `node` of the existence of this one. -/
def nodeNotifyNode (p : Process ν) (node : NodeInfo) : Process ν :=
  { p with net := Remote.notifyNode p.net p.node node }

/-- Ask `node` whether it is alive. -/
def nodeCheckNode (p : Process ν) (node : NodeInfo) (cb : CheckCb) : Process ν :=
  { p.emit (.probed cb) with net := Remote.checkNode p.net p.node node cb }

/-- Answer a lookup that came in on a connection. -/
def nodeSuccessorFoundForRemote (p : Process ν) (data : IncomingHandlerData) (succ : NodeInfo)
    (hops : Int16) : Process ν :=
  { p with net := Remote.successorFoundForRemote p.net data succ hops }

/-! ### Callbacks for a found node -/

/-- The successor of the node's own identifier, found for joining a network. -/
def nodeNetworkJoinSuccFound (p : Process ν) (joinedCbArg : ℕ) (succ : NodeInfo) : Process ν :=
  let p := p.setSucc 0 succ
  if Remote.eventNew p.net then p.emit (.joinActivated joinedCbArg) else p

/-- The predecessor of the successor, found for stabilisation. A node whose address and
port are both zero stands for a successor that knows no predecessor. The messages that are
printed on the way read the successor array at the same indices, and are left out. -/
def nodeStabilizeSpFound (p : Process ν) (newSucc : NodeInfo) : Process ν :=
  let p :=
    if newSucc.port == 0 && newSucc.IP == 0 then p
    else
      let p := p.lock
      let succNum := nodeFirstAliveSucc p.node
      let p := p.touch succNum
      let succ := p.node.successorAt succNum
      let p :=
        if nodeIdCompare p.node.self.id succ.id == 0
            || nodeIdInRange newSucc.id (p.node.self.id + 1) succ.id then
          p.setSucc 0 newSucc
        else p
      p.unlock
  let p := p.lock
  let i := nodeFirstAliveSucc p.node
  let p := p.touch i
  let p := nodeNotifyNode p (p.node.successorAt i)
  p.unlock

/-- Ask the node in the successor entry `succNum` for the one to go into the next entry. -/
def nodeUpdateSucc (p : Process ν) (succNum : ℤ) : Process ν :=
  let p := p.touch succNum
  let succ := p.node.successorAt succNum
  if succ.IP == 0 then p
  else (nodeFindSuccessorRemote p succ (succ.id + 1) (.updateSuccsFound (succNum + 1))).2

/-- The node for the successor entry `succNum`, found. -/
def nodeUpdateSuccsFound (p : Process ν) (found : NodeInfo) (succNum : ℤ) : Process ν :=
  let p := p.lock
  let p := p.setSucc succNum found
  let p := if succNum < numOfSuccs - 1 then nodeUpdateSucc p succNum else p
  p.unlock

/-- The node for the finger `fingerNum`, found. A node is not its own finger. -/
def fingerUpdate (p : Process ν) (node : NodeInfo) (fingerNum : Fin idBits) : Process ν :=
  let entry := if nodeIdCompare p.node.self.id node.id ≠ 0 then node else nullNode
  { p with node := { p.node with
      fingerTable := Function.update p.node.fingerTable fingerNum entry } }

/-- Hand a found node to its callback. -/
def nodeFound (p : Process ν) (data : NodeFoundCbData) : Process ν :=
  let p := p.emit (.found data.cb data.node data.hops)
  match data.cb with
  | .networkJoinSuccFound arg => nodeNetworkJoinSuccFound p arg data.node
  | .stabilizeSpFound => nodeStabilizeSpFound p data.node
  | .updateSuccsFound succNum => nodeUpdateSuccsFound p data.node succNum
  | .fingerUpdate fingerNum => fingerUpdate p data.node fingerNum
  | .successorFoundForRemote h => nodeSuccessorFoundForRemote p h data.node data.hops
  | .app _ => p
  | .freed => { p with net := Remote.useFreed p.net }

/-! ### Finding a successor -/

/-- Find the successor of `id` and hand it to `cb`. The `else` of the first test guards the
lock only: a node asked for its own identifier answers and then goes on like every other, with
a callback that it has called. -/
def nodeFindSuccessor (p : Process ν) (id : HashType) (cb : FoundCb) : ℤ × Process ν :=
  let own := nodeIdCompare p.node.self.id id == 0
  let p := if own then nodeFound p { cb := cb, node := p.node.self, hops := 0 } else p.lock
  let cb := if own then cb.called else cb
  let succNum := nodeFirstAliveSucc p.node
  let p := p.touch succNum
  let succ := p.node.successorAt succNum
  if nodeIdInRange id p.node.self.id succ.id || nodeIdCompare p.node.self.id succ.id == 0 then
    let p := nodeFound p { cb := cb, node := succ, hops := 0 }
    (0, p.unlock)
  else
    let p := p.unlock
    let n := nodeClosestPrecedingNode p.node id
    -- the successor array is searched once more when no finger is found
    let p :=
      if (closestFinger p.node id).isNone then p.touch (nodeFirstAliveSucc p.node) else p
    nodeFindSuccessorRemote p n id cb

/-! ### What the timers start -/

/-- Ask the successor for its predecessor. -/
def nodeNetworkStabalize (p : Process ν) : Process ν :=
  let i := nodeFirstAliveSucc p.node
  let p := p.touch i
  nodeGetPredecessorRemote p (p.node.successorAt i) .stabilizeSpFound

/-- Start to update the successor array, from its first entry in use. -/
def nodeUpdateSuccs (p : Process ν) : Process ν :=
  let p := p.lock
  let p := nodeUpdateSucc p (nodeFirstAliveSucc p.node)
  p.unlock

/-- Look up the node for the finger `fingerNum`. -/
def nodeFixAFinger (p : Process ν) (fingerNum : ℤ) : Process ν :=
  if h : fingerNum ≥ idBits ∨ fingerNum ≤ 0 then p
  else
    let fingerId := p.node.self.id + (twoToTheN (fingerNum - 1)).toNat.toUInt32
    (nodeFindSuccessor p fingerId (.fingerUpdate ⟨fingerNum.toNat, by omega⟩)).2

/-- Look up the nodes for all fingers. -/
def nodeFixFingers (p : Process ν) : Process ν :=
  (List.range idBits).foldl (fun p (fnum : ℕ) => nodeFixAFinger p fnum) p

/-- Probe every successor. -/
def nodeCheckSuccessors (p : Process ν) : Process ν :=
  (List.finRange numOfSuccs).foldl (fun p i =>
    let p := p.touch i.val
    if (p.node.successor i).IP ≠ 0 then
      nodeCheckNode p (p.node.successor i) (.succResult i.val)
    else p) p

/-- Probe the predecessor. -/
def nodeCheckPredecessor (p : Process ν) : Process ν :=
  if !p.node.hasPred then p else nodeCheckNode p p.node.predecessor .predResult

omit [Remote ν] in
/-- Hand the result of a probe to its callback. -/
def nodeCheckResult (p : Process ν) (cb : CheckCb) (success : Bool) : Process ν :=
  let p := p.emit (.checked cb success)
  match cb with
  | .predResult =>
    if !success then
      { p with node := { p.node with hasPred := false, predecessor := nullNode } }
    else p
  | .succResult sn => if !success then p.setSucc sn nullNode else p

omit [Remote ν] in
/-- Set the handler of the application for messages. -/
def nodeSetNodeMsgHandler (p : Process ν) (nodeMsgCb cbArg : ℕ) : Process ν :=
  { p.emit (.nodeMsgHandler nodeMsgCb cbArg) with
    node := { p.node with msgCb := nodeMsgCb, msgCbArg := cbArg } }

/-! ### Entering a network -/

/-- The node is in a network: tell the application and start the maintenance. -/
def nodeNetworkJoined (p : Process ν) (joinedCbArg : ℕ) : Process ν :=
  let p := p.emit (.joined joinedCbArg)
  let p := nodeNetworkStabalize p
  let p := nodeUpdateSuccs p
  nodeFixFingers p

/-- Create a network with this node in it. -/
def nodeNetworkCreate (p : Process ν) (joinedCbArg : ℕ) : ℤ × Process ν :=
  let p := p.setSucc 0 p.node.self
  let p := { p with node := { p.node with predecessor := p.node.self, hasPred := true } }
  if Remote.eventNew p.net then (0, p.emit (.joinActivated joinedCbArg)) else (-1, p)

/-- Join the network that `node` is in. -/
def nodeNetworkJoin (p : Process ν) (node : NodeInfo) (joinedCbArg : ℕ) : Process ν :=
  let p := { p with node := { p.node with hasPred := false } }
  (nodeFindSuccessorRemote p node p.node.self.id (.networkJoinSuccFound joinedCbArg)).2

end Operations
