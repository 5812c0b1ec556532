import LibDht.Node.Lookup

/-!
# A network of messages

`Outbox` is a network that takes every message whole and refuses none: what a node sends
is a list of messages, each with the callback its reply is for. Running the operations of a
node over an empty `Outbox` tells what the node sends.
-/

/-- What a node sends: a request, with the callback its reply is handed to, a notification,
or the answer to a lookup that came in on a connection. The use of what has been freed, with
which the process ends, is recorded among them. -/
inductive Sent where
  | findSuccessor (dest : NodeInfo) (id : HashType) (cb : FoundCb)
  | predecessor (dest : NodeInfo) (cb : FoundCb)
  | notify (dest : NodeInfo) (id : HashType) (port : UInt16)
  | alive (dest : NodeInfo) (cb : CheckCb)
  | reply (data : IncomingHandlerData) (node : NodeInfo) (hops : Int16)
  | useFreed
  deriving DecidableEq, Repr

/-- The messages sent, in order. -/
structure Outbox where
  sent : List Sent
  deriving DecidableEq, Repr

/-- An answer to a lookup counts one hop more than it was found in. -/
instance : Remote Outbox where
  eventNew _ := true
  findSuccessorRemote o _ n id cb := (0, ⟨o.sent ++ [.findSuccessor n id cb]⟩)
  getPredecessorRemote o _ n cb := ⟨o.sent ++ [.predecessor n cb]⟩
  notifyNode o self n := ⟨o.sent ++ [.notify n self.self.id self.self.port]⟩
  checkNode o _ n cb := ⟨o.sent ++ [.alive n cb]⟩
  successorFoundForRemote o data succ hops := ⟨o.sent ++ [.reply data succ (hops + 1)]⟩
  useFreed o := ⟨o.sent ++ [.useFreed]⟩

/-- The process of a node with nothing sent and nothing logged. -/
def idle (s : NodeSelf) : Process Outbox :=
  { node := s, net := ⟨[]⟩, succsLock := false, log := [] }

@[simp] theorem idle_node (s : NodeSelf) : (idle s).node = s := rfl
@[simp] theorem idle_sent (s : NodeSelf) : (idle s).net.sent = [] := rfl
@[simp] theorem idle_log (s : NodeSelf) : (idle s).log = [] := rfl

/-- The nodes handed to the callback `cb`, with the hops they were found in, in order. -/
def handedTo (cb : FoundCb) (log : List Event) : List (NodeInfo × Int16) :=
  log.filterMap fun
    | .found c n hops => if c = cb then some (n, hops) else none
    | _ => none

/-- The nodes asked in a lookup, in order. -/
def Outbox.asked (o : Outbox) : List NodeInfo :=
  o.sent.filterMap fun
    | .findSuccessor dest _ _ => some dest
    | _ => none

@[simp]
theorem handedTo_append (cb : FoundCb) (l l' : List Event) :
  handedTo cb (l ++ l') = handedTo cb l ++ handedTo cb l'
  := List.filterMap_append ..

@[simp]
theorem handedTo_found (cb : FoundCb) (n : NodeInfo) (hops : Int16) :
  handedTo cb [.found cb n hops] = [(n, hops)]
  := by
  simp [handedTo]

theorem handedTo_eq_nil {cb : FoundCb} {l : List Event} {is : List ℤ}
    (h : ∀ e ∈ l, e.Reads is) :
  handedTo cb l = []
  := by
  apply List.filterMap_eq_nil_iff.mpr
  intro e he
  cases e with
  | found c n k => exact absurd (h _ he) not_false
  | _ => rfl

/-- The callback of a lookup that came in on a connection. -/
def relay : FoundCb :=
  .successorFoundForRemote { connection := 0, asker := none }

theorem relay_ne_freed :
  relay ≠ .freed
  := by
  simp [relay]

/-- The callbacks a lookup is started with, and what they are once they have been called: they
ask nobody for a successor themselves. -/
def FoundCb.Passive : FoundCb → Prop
  | .fingerUpdate _ | .successorFoundForRemote _ | .app _ | .freed => True
  | _ => False

instance (cb : FoundCb) : Decidable cb.Passive :=
  match cb with
  | .fingerUpdate _ | .successorFoundForRemote _ | .app _ | .freed => isTrue trivial
  | .networkJoinSuccFound _ | .stabilizeSpFound | .updateSuccsFound _ => isFalse not_false

theorem FoundCb.Passive.called {cb : FoundCb} (h : cb.Passive) :
  cb.called.Passive
  := by
  cases cb with
  | fingerUpdate k => trivial
  | successorFoundForRemote d => trivial
  | app a => trivial
  | freed => trivial
  | _ => exact absurd h not_false

/-- A passive callback leaves the successor array as it is. -/
theorem nodeFound_successor {ν : Type} [Remote ν] {cb : FoundCb} (hcb : cb.Passive) (p : Process ν)
    (n : NodeInfo) (hops : Int16) :
  (nodeFound p { cb := cb, node := n, hops := hops }).node.successor = p.node.successor
  := by
  cases cb with
  | fingerUpdate k => rfl
  | successorFoundForRemote d => rfl
  | app a => rfl
  | freed => rfl
  | _ => exact absurd hcb not_false

/-- A passive callback is handed the node, and nobody is asked. -/
theorem nodeFound_passive {cb : FoundCb} (hcb : cb.Passive) (p : Process Outbox)
    (n : NodeInfo) (hops : Int16) :
  let q := nodeFound p { cb := cb, node := n, hops := hops }
  q.log = p.log ++ [.found cb n hops] ∧ q.net.asked = p.net.asked
    ∧ q.node.successor = p.node.successor ∧ q.node.outside = p.node.outside
  := by
  cases cb with
  | fingerUpdate k => exact ⟨rfl, rfl, rfl, rfl⟩
  | successorFoundForRemote d =>
    refine ⟨rfl, ?_, rfl, rfl⟩
    simp [nodeFound, nodeSuccessorFoundForRemote, Remote.successorFoundForRemote, Outbox.asked]
  | app a => exact ⟨rfl, rfl, rfl, rfl⟩
  | freed =>
    refine ⟨rfl, ?_, rfl, rfl⟩
    simp [nodeFound, Remote.useFreed, Outbox.asked]
  | _ => exact absurd hcb not_false
