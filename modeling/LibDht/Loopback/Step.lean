import LibDht.Net.Delivery
import LibDht.Protocol.Addresses

/-!
# A network of processes on one machine

The processes of a network run on one machine: each listens at `127.0.0.1`, on a port of its
own, and they send bytes to each other on connections. A process is in the state of a node
over its connection table, and what happens to it are the occurrences of such a process:

* what the node starts by itself once it has entered the network,
* a connection that another process has made arrives at its listener,
* the bytes of a request arrive on a connection that it accepted, or those of a reply on one
  that it made, and
* one end of a connection finds that the other has closed it.

Streams arrive whole, after any delay and in any order, and those on different connections
overtake each other. No process fails, and none crashes: whatever happens leaves a process
running. None of the timeouts of connections passes. Memory may be short at any time, and slots
may run out.
-/

open Function

/-- All nodes are at `127.0.0.1`. -/
def Places.onLoopback (port : HashType → UInt16) : Places where
  ip _ := 0x7F000001
  port := port

/-- A connection that the process `client` has made and that the listener of the process
`server` has seen: its serial on either side, none when the server has found no slot for it,
and whether the request on it has arrived. -/
structure Link where
  client : HashType
  made : ℕ
  server : HashType
  taken : Option ℕ
  asked : Bool
  deriving DecidableEq, Repr

/-- A process, and whether its node has entered the network. -/
structure Host where
  process : NodeProcess
  entered : Bool

/-- The processes on the machine, and the connections that listeners have seen. -/
structure Machine where
  host : HashType → Option Host
  links : List Link

/-- What a node in a network starts by itself: for the application or on a timer. -/
def Occurrence.Own : Occurrence → Prop
  | .stabilise | .fixFingers | .checkPred | .checkSuccs | .updateSuccs => True
  | .joined _ | .findSuccessor _ _ => True
  | _ => False

/-- `BEV_EVENT_READING`. -/
abbrev bevEventReading : UInt16 := 0x01

namespace Machine

/-- The process `i` has run to the state `p`. -/
def run (m : Machine) (i : HashType) (entered : Bool) (p : NodeProcess) : Machine :=
  { m with host := update m.host i (some { process := p, entered := entered }) }

/-- The connection with the serial `s` at `i`, seen by the listener of `d`, which has brought
the process from `q` to `q'`. -/
def seen (i : HashType) (s : ℕ) (d : HashType) (q q' : NodeProcess) : Link where
  client := i
  made := s
  server := d
  taken := if ∃ j, q'.net.serialIn j = some q.net.nextSerial then some q.net.nextSerial else none
  asked := false

/-- The request on a connection has arrived. -/
def ask (links : List Link) (l : Link) : List Link :=
  links.map fun l' => if l' = l then { l' with asked := true } else l'

/-- The reply on the slot `k` is the one that a joining node waits for. -/
def joinsOn (p : NodeProcess) (k : Fin maxOpenConnections) : Bool :=
  match (p.net.connections k).upperCbArg with
  | some (.found data) => Net.joins data.cb
  | _ => false

/-- The process that is started for the node `i`. -/
def start (port : HashType → UInt16) (mem : NodeSelf) (i : HashType) (outcome : ℕ → Outcome) :
    NodeProcess :=
  Process.boot (nodeCreate mem i (port i)) outcome

/-- The machine with the process of the first node, which has created the network. -/
def created (port : HashType → UInt16) (mem : NodeSelf) (c : HashType) (outcome : ℕ → Outcome)
    (arg : ℕ) : Machine where
  host := update (fun _ => none) c
    (some { process := (start port mem c outcome).occur (.networkCreate arg), entered := true })
  links := []

/-- One step. A node joins with the address of one that has entered, whatever identifier it
is given for it, with an empty finger table and on a free port. A connection reaches the
process that listens on the port it was made to. -/
inductive Step (port : HashType → UInt16) : Machine → Machine → Prop where
  | operation {m : Machine} {i : HashType} {p : NodeProcess} (o : Occurrence) (ho : o.Own)
      (hp : m.host i = some { process := p, entered := true })
      (hrun : (p.occur o).net.crashed = false) : Step port m (m.run i true (p.occur o))
  | join {m : Machine} {i : HashType} {q : NodeProcess} (mem : NodeSelf) (outcome : ℕ → Outcome)
      (contact : HashType) (node : NodeInfo) (arg : ℕ)
      (hi : m.host i = none) (hport : ∀ j, m.host j ≠ none → port j ≠ port i)
      (hc : m.host contact = some { process := q, entered := true })
      (hnode : (node.IP, node.port) = (0x7F000001, port contact))
      (hf : ∀ k, mem.fingerTable k = nullNode) :
      Step port m (m.run i false ((start port mem i outcome).occur (.networkJoin node arg)))
  | accept {m : Machine} {i d : HashType} {p q : NodeProcess} {e e' : Bool}
      {k : Fin maxOpenConnections} {s : ℕ} {b : Bufferevent}
      (hp : m.host i = some { process := p, entered := e }) (hb : Connected p k s b)
      (hto : (p.net.connections k).sin = (0x7F000001, port d))
      (hnew : ∀ l ∈ m.links, l.client = i → l.made ≠ s)
      (hq : m.host d = some { process := q, entered := e' }) :
      Step port m { m.run d e' (q.occur (.accept 0x7F000001)) with
        links := m.links ++ [seen i s d q (q.occur (.accept 0x7F000001))] }
  | request {m : Machine} {l : Link} {p q : NodeProcess} {e e' : Bool} {v : ℕ}
      {k j : Fin maxOpenConnections} {b b' : Bufferevent} (hl : l ∈ m.links)
      (hasked : l.asked = false) (hp : m.host l.client = some { process := p, entered := e })
      (hb : Connected p k l.made b)
      (hq : m.host l.server = some { process := q, entered := e' }) (hv : l.taken = some v)
      (hb' : Connected q j v b') (hrun : (q.occur (.data j b.output)).net.crashed = false) :
      Step port m { m.run l.server e' (q.occur (.data j b.output)) with links := ask m.links l }
  | reply {m : Machine} {l : Link} {p q : NodeProcess} {e e' : Bool} {v : ℕ}
      {k j : Fin maxOpenConnections} {b b' : Bufferevent} (hl : l ∈ m.links)
      (hasked : l.asked = true) (hp : m.host l.client = some { process := p, entered := e })
      (hb : Connected p k l.made b)
      (hq : m.host l.server = some { process := q, entered := e' }) (hv : l.taken = some v)
      (hb' : Connected q j v b') (hout : b'.output ≠ [])
      (hrun : (p.occur (.data k b'.output)).net.crashed = false) :
      Step port m (m.run l.client (e || joinsOn p k) (p.occur (.data k b'.output)))
  | clientClosed {m : Machine} {l : Link} {p q : NodeProcess} {e e' : Bool} {v : ℕ}
      {j : Fin maxOpenConnections} {b' : Bufferevent} (hl : l ∈ m.links)
      (hp : m.host l.client = some { process := p, entered := e })
      (hclosed : ∀ k, p.net.serialIn k ≠ some l.made)
      (hq : m.host l.server = some { process := q, entered := e' }) (hv : l.taken = some v)
      (hb' : Connected q j v b') :
      Step port m (m.run l.server e' (q.occur (.event j (bevEventReading ||| bevEventEof))))
  | serverClosed {m : Machine} {l : Link} {p q : NodeProcess} {e e' : Bool} {v : ℕ}
      {k : Fin maxOpenConnections} {b : Bufferevent} (hl : l ∈ m.links)
      (hp : m.host l.client = some { process := p, entered := e }) (hb : Connected p k l.made b)
      (hq : m.host l.server = some { process := q, entered := e' }) (hv : l.taken = some v)
      (hclosed : ∀ j, q.net.serialIn j ≠ some v) :
      Step port m (m.run l.client e (p.occur (.event k (bevEventReading ||| bevEventEof))))

/-- The machines that a run reaches after the node `c` has created the network. -/
inductive Reachable (port : HashType → UInt16) (c : HashType) : Machine → Prop where
  | created (mem : NodeSelf) (outcome : ℕ → Outcome) (arg : ℕ)
      (hf : ∀ k, mem.fingerTable k = nullNode) :
      Reachable port c (created port mem c outcome arg)
  | step {m m' : Machine} (h : Reachable port c m) (hs : Step port m m') : Reachable port c m'

end Machine
