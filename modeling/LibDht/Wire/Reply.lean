import LibDht.Node.Self
import LibDht.Wire.Codec

/-!
# Replies

The bytes of a reply, as the node that is asked writes them and as the node that asked
reads them. A reply that carries a node starts with `Y` and has the fields of the node as
they lie in memory. The reader fills in those bytes that have arrived.
-/

/-- The byte `Y`. -/
abbrev replyYes : UInt8 := 89

/-- The byte `N`. -/
abbrev replyNo : UInt8 := 78

/-- The end of a line. -/
abbrev lineFeed : UInt8 := 10

/-! ### Writing -/

/-- The fields of a node. -/
def nodeBytes (n : NodeInfo) : List UInt8 :=
  u32.encode n.id ++ u32.encode n.IP ++ u16.encode n.port

/-- The reply to a request for a successor: the node, and the hops it was found in. -/
def successorReply (n : NodeInfo) (hops : Int16) : List UInt8 :=
  replyYes :: (nodeBytes n ++ i16.encode hops)

/-- The reply to a request for the predecessor. -/
def predecessorReply (s : NodeSelf) : List UInt8 :=
  if s.hasPred then replyYes :: nodeBytes s.predecessor else [replyNo]

/-- The reply to a liveness probe: six bytes of a string that has three. -/
def aliveReply (tail : UInt8 × UInt8 × UInt8) : List UInt8 :=
  [replyYes, lineFeed, 0, tail.1, tail.2.1, tail.2.2]

/-! ### Reading -/

/-- What `node_found_remote_cb` makes of the bytes that have arrived, in a place that held
`old`. The byte `result` is there when none has. -/
def readFound (old : NodeInfo × Int16) (result : UInt8) (buf : List UInt8) : NodeInfo × Int16 :=
  if buf.headD result ≠ replyYes then (nullNode, old.2)
  else
    let (id, buf) := u32.fill old.1.id (buf.drop 1)
    let (IP, buf) := u32.fill old.1.IP buf
    let (port, buf) := u16.fill old.1.port buf
    let (hops, _) := i16.fill old.2 buf
    (⟨id, IP, port⟩, hops)

/-- The fields of a node are read one after another, and then the hops. -/
theorem readFound_yes (old : NodeInfo × Int16) (result : UInt8) (l : List UInt8) :
  readFound old result (replyYes :: l)
    = (⟨(u32.fill old.1.id l).1, (u32.fill old.1.IP (l.drop 4)).1,
        (u16.fill old.1.port (l.drop 8)).1⟩, (i16.fill old.2 (l.drop 10)).1)
  := by
  have hIP : (u32.fill old.1.id l).2 = l.drop 4 := rfl
  have hport : (u32.fill old.1.IP (l.drop 4)).2 = l.drop 8 := List.drop_drop
  have hhops : (u16.fill old.1.port (l.drop 8)).2 = l.drop 10 := List.drop_drop
  simp only [readFound, List.headD_cons, ne_eq, not_true_eq_false, if_false, List.drop_one,
    List.tail_cons, hIP, hport, hhops]

/-- A reply that is not of a node is the null node, and its hops are what was there. -/
theorem readFound_no {x : UInt8} (hx : x ≠ replyYes) (l : List UInt8) (old : NodeInfo × Int16)
    (result : UInt8) :
  readFound old result (x :: l) = (nullNode, old.2)
  := by
  rw [readFound, List.headD_cons, if_pos hx]

/-- The first line in a buffer, without its end: `evbuffer_readln`. -/
def readln (buf : List UInt8) : Option (List UInt8) :=
  if lineFeed ∈ buf then some (buf.takeWhile (· ≠ lineFeed)) else none
