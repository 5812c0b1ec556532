import LibDht.Node.Outbox

/-!
# Runs of a network without failures

A `Net` holds the processes of a network, by identifier, and the messages in flight
between them. Messages are delivered whole, in any order and after any delay, or lost; no
process fails, and every liveness probe is answered. What a process does when a message
arrives or a timer fires is what its operations do over an empty `Outbox`, followed by the
routing of what they sent.

A lookup in flight carries the stack of those who wait for its reply, innermost first:
each is a node with the callback the reply is handed to there. A node that forwards a
lookup puts itself on top of the stack, and its reply goes to what is below.
-/

/-- A node that waits for a reply, and the callback the reply is handed to. -/
structure Frame where
  owner : HashType
  cb : FoundCb
  deriving DecidableEq, Repr

/-- A message in flight. -/
inductive Msg where
  | succRequest (dest id : HashType) (frames : List Frame)
  | succReply (node : NodeInfo) (hops : Int16) (frames : List Frame)
  | predRequest (dest : HashType) (frame : Frame)
  | predReply (node : NodeInfo) (hops : Int16) (frame : Frame)
  | notify (dest id : HashType) (port : UInt16)
  deriving DecidableEq, Repr

/-- A process of the network, and whether the successor it joined with has been found. -/
structure Peer where
  node : NodeSelf
  joined : Bool

/-- The processes of a network and the messages in flight. -/
structure Net where
  peer : HashType → Option Peer
  msgs : List Msg

/-- The request or notification that a process sends, as a message. -/
def Sent.request (owner : HashType) (frames : List Frame) : Sent → Option Msg
  | .findSuccessor dest id cb => some (.succRequest dest.id id ({ owner := owner, cb := cb } :: frames))
  | .predecessor dest cb => some (.predRequest dest.id { owner := owner, cb := cb })
  | .notify dest id port => some (.notify dest.id id port)
  | .alive _ _ => none
  | .reply _ _ _ => none
  | .useFreed => none

/-- The answer that a process writes to a lookup that came in, as a message. -/
def Sent.answer (frames : List Frame) : Sent → Option Msg
  | .reply _ node hops => some (.succReply node hops frames)
  | _ => none

/-- The messages that a process sends while it serves the stack `frames`. Of several answers
written to one connection the reader takes the first. -/
def route (owner : HashType) (frames : List Frame) (sent : List Sent) : List Msg :=
  sent.filterMap (Sent.request owner frames) ++ (sent.filterMap (Sent.answer frames)).take 1

/-- The maintenance that runs periodically at a node in a network. -/
inductive Timer where
  | stabilise
  | updateSuccs
  | fixFingers

/-- What a timer starts. -/
def Timer.fire {ν : Type} [Remote ν] (t : Timer) (p : Process ν) : Process ν :=
  match t with
  | .stabilise => nodeNetworkStabalize p
  | .updateSuccs => nodeUpdateSuccs p
  | .fixFingers => nodeFixFingers p

/-- What a node answers to one that asks for its predecessor. -/
def predAnswer (s : NodeSelf) : NodeInfo :=
  if s.hasPred then s.predecessor else nullNode

namespace Net

/-- The nodes that have joined. -/
def Joined (net : Net) : Set HashType :=
  { i | ∃ s, net.peer i = some { node := s, joined := true } }

/-- The network after the process `i` has run to the state `p`, serving the stack
`frames`. -/
def act (net : Net) (i : HashType) (joined : Bool) (frames : List Frame) (p : Process Outbox) :
    Net where
  peer := Function.update net.peer i (some { node := p.node, joined := joined })
  msgs := net.msgs ++ route i frames p.net.sent

/-- The network with its first node, which has created it. -/
def created (mem : NodeSelf) (c : HashType) (port : UInt16) (arg : ℕ) : Net where
  peer := Function.update (fun _ => none) c
    (some { node := (nodeNetworkCreate (idle (nodeCreate mem c port)) arg).2.node, joined := true })
  msgs := []

/-- Whether the callback is the one that joins a network. -/
def joins : FoundCb → Bool
  | .networkJoinSuccFound _ => true
  | _ => false

/-- One step of the network. A joining node has an identifier no other node has, and its
uninitialised finger table holds null entries and joined nodes only. A node that is asked for
its own identifier crashes, and so in these runs none is. A notification is handled with the
address its connection comes from, which is never zero. -/
inductive Step : Net → Net → Prop where
  | timer {net : Net} {i : HashType} {s : NodeSelf} (t : Timer)
      (hi : net.peer i = some { node := s, joined := true }) :
      Step net (net.act i true [] (t.fire (idle s)))
  | lookup {net : Net} {i : HashType} {s : NodeSelf} (id : HashType) (arg : ℕ)
      (hi : net.peer i = some { node := s, joined := true }) :
      Step net (net.act i true [] (nodeFindSuccessor (idle s) id (.app arg)).2)
  | join {net : Net} {i : HashType} (mem : NodeSelf) (port : UInt16) (contact : NodeInfo)
      (arg : ℕ) (hi : net.peer i = none) (hc : contact.id ∈ net.Joined)
      (hf : ∀ k, NullFinger (mem.fingerTable k) ∨ (mem.fingerTable k).id ∈ net.Joined) :
      Step net (net.act i false [] (nodeNetworkJoin (idle (nodeCreate mem i port)) contact arg))
  | succRequest {net : Net} {dest id : HashType} {frames : List Frame} {s : NodeSelf} {b : Bool}
      {before after : List Msg} (hm : net.msgs = before ++ .succRequest dest id frames :: after)
      (hd : net.peer dest = some { node := s, joined := b }) (hne : dest ≠ id) :
      Step net ({ net with msgs := before ++ after }.act dest b frames
        (nodeFindSuccessor (idle s) id relay).2)
  | succReply {net : Net} {node : NodeInfo} {hops : Int16} {f : Frame} {frames : List Frame}
      {s : NodeSelf} {b : Bool} {before after : List Msg}
      (hm : net.msgs = before ++ .succReply node hops (f :: frames) :: after)
      (hd : net.peer f.owner = some { node := s, joined := b }) :
      Step net ({ net with msgs := before ++ after }.act f.owner (b || joins f.cb) frames
        (nodeFound (idle s) { cb := f.cb, node := node, hops := hops }))
  | predRequest {net : Net} {dest : HashType} {f : Frame} {s : NodeSelf} {b : Bool}
      {before after : List Msg} (hops : Int16)
      (hm : net.msgs = before ++ .predRequest dest f :: after)
      (hd : net.peer dest = some { node := s, joined := b }) :
      Step net { net with msgs := before ++ after ++ [.predReply (predAnswer s) hops f] }
  | predReply {net : Net} {node : NodeInfo} {hops : Int16} {f : Frame} {s : NodeSelf} {b : Bool}
      {before after : List Msg} (hm : net.msgs = before ++ .predReply node hops f :: after)
      (hd : net.peer f.owner = some { node := s, joined := b }) :
      Step net ({ net with msgs := before ++ after }.act f.owner b []
        (nodeFound (idle s) { cb := f.cb, node := node, hops := hops }))
  | notify {net : Net} {dest id : HashType} {port : UInt16} {s : NodeSelf} {b : Bool}
      {before after : List Msg} (ip : UInt32) (hip : ip ≠ 0)
      (hm : net.msgs = before ++ .notify dest id port :: after)
      (hd : net.peer dest = some { node := s, joined := b }) :
      Step net ({ net with msgs := before ++ after }.act dest b []
        (idle (nodeNotified s { id := id, IP := ip, port := port })))
  | lose {net : Net} {m : Msg} {before after : List Msg} (hm : net.msgs = before ++ m :: after) :
      Step net { net with msgs := before ++ after }

/-- The networks that a run reaches after the node `c` has created one. -/
inductive Reachable (c : HashType) : Net → Prop where
  | created (mem : NodeSelf) (port : UInt16) (arg : ℕ) (hf : ∀ k, NullFinger (mem.fingerTable k)) :
      Reachable c (created mem c port arg)
  | step {net net' : Net} (h : Reachable c net) (hs : Step net net') : Reachable c net'

end Net
