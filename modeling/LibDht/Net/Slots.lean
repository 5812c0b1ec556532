import LibDht.Net.Moves

/-!
# How the slots of a node change

`SlotChange` lists what can be done to a slot of the table of a node: its `bufferevent` is
used or given back, it is taken for a connection, a callback or the argument is set, and an
argument it points to is freed: that of a message for the application, or any after the
connection is closed. `Evolves` relates two tables when the second comes from the
first by such changes, one slot at a time. Whatever happens to a process makes its table
evolve so; what holds of every slot, and is kept by every change, holds in every run.

Serving one connection leaves the others alone. `Touches` says so of the changes: but for
what is to be written, they are to the slot of the connection that is served, or of the one
that the application names, and to slots that were empty.
-/

/-- A slot of the table of a node. -/
abbrev NodeSlot : Type :=
  NetConnection DataCb EventCb CbArg

/-- By whom a connection was made: by the node to ask another one, by another one to ask the
node, or by the application. -/
inductive Origin where
  | opened
  | accepted
  | foreign
  deriving DecidableEq, Repr

/-- By whom the connections are made that an occurrence brings. -/
def Occurrence.origin : Occurrence → Origin
  | .accept _ => .accepted
  | .create _ _ | .connectAndSend _ _ _ _ => .foreign
  | _ => .opened

/-- The callbacks and the argument that a node sends its requests with. -/
inductive NodeRequest : Option DataCb → Option EventCb → Option CbArg → Prop where
  | find (data : NodeFoundCbData) :
      NodeRequest (some .nodeFoundRemoteCb) (some .nodeRemoteFindEvent) (some (.found data))
  | notify : NodeRequest none (some .nodeNotifyRepEvent) (some .self)
  | probe (cb : CheckCb) :
      NodeRequest (some .nodeCheckNodeReply) (some .nodeCheckNodeEvent) (some (.check cb))

/-- The callback reads the reply to a request of the node. -/
def DataCb.ReadsReply : DataCb → Prop
  | .nodeFoundRemoteCb | .nodeCheckNodeReply => True
  | _ => False

/-- One change to the slot `c`. Connections made by `who` get the serial `n`. -/
inductive SlotChange (who : Origin) (n : ℕ) (c : NodeSlot) : NodeSlot → Prop where
  | modifyBev {f : Bufferevent → Bufferevent} (hf : ∀ b, (f b).serial = b.serial) :
      SlotChange who n c { c with bev := c.bev.map f }
  | close : SlotChange who n c { c with bev := none, sin := (0, 0), netCbArg := none }
  | request (i : Fin maxOpenConnections) {b : Bufferevent} (hb : b.serial = n) (msg : NodeMessage)
      {readCb : Option DataCb} {eventCb : Option EventCb} {cbArg : Option CbArg}
      (hrequest : NodeRequest readCb eventCb cbArg) (hwho : who = .opened) :
      SlotChange who n c (taken c i b msg readCb eventCb cbArg)
  | accept (i : Fin maxOpenConnections) {b : Bufferevent} (hb : b.serial = n)
      (hwho : who = .accepted) :
      SlotChange who n c (accepted c i b .incomingReadCb .incomingEventCb .self)
  | foreign (i : Fin maxOpenConnections) {b : Bufferevent} (hb : b.serial = n) (msg : NodeMessage)
      (readCb eventCb cbArg : Option ℕ) (hwho : who = .foreign) :
      SlotChange who n c
        (taken c i b msg (readCb.map .app) (eventCb.map .app) (cbArg.map .app))
  | setReadCb {cb : Option DataCb} (hcb : ∀ d ∈ cb, ¬ d.ReadsReply) :
      SlotChange who n c { c with readCb := cb }
  | setWriteCb (cb : Option ℕ) : SlotChange who n c { c with writeCb := cb.map .app }
  | setEventCb (cb : Option ℕ) : SlotChange who n c { c with evtCb := cb.map .app }
  | setCbArg (cbArg : Option ℕ) : SlotChange who n c { c with upperCbArg := cbArg.map .app }
  | defer (type : UInt8) (len : UInt32) :
      SlotChange who n c { c with
        readCb := some .handleNodeMessage
        evtCb := some .incomingEventMsgCb
        upperCbArg := some (.msg type len) }
  | dangle {arg : CbArg} (harg : c.bev = none ∨ ∃ type len, arg = .msg type len) :
      SlotChange who n c (NodeNet.dangle arg c)

/-- The table `net'` comes from `net` by changes to its slots. -/
inductive Evolves (who : Origin) (net : NodeNet) : NodeNet → Prop where
  | refl : Evolves who net net
  | same {net' net'' : NodeNet} (h : Evolves who net net')
      (hconn : net''.connections = net'.connections) (hnext : net'.nextSerial ≤ net''.nextSerial) :
      Evolves who net net''
  | slot {net' net'' : NodeNet} (h : Evolves who net net') {i : Fin maxOpenConnections}
      {c : NodeSlot} (hchange : SlotChange who net'.nextSerial (net'.connections i) c)
      (hconn : net''.connections = Function.update net'.connections i c)
      (hnext : net'.nextSerial ≤ net''.nextSerial) : Evolves who net net''

namespace Evolves

variable {who : Origin} {net net' net'' : NodeNet}

theorem nextSerial (h : Evolves who net net') :
  net.nextSerial ≤ net'.nextSerial
  := by
  induction h with
  | refl => exact le_rfl
  | same _ _ hnext ih => exact ih.trans hnext
  | slot _ _ _ hnext ih => exact ih.trans hnext

/-- What every change keeps holds of the slots of the later table. -/
theorem forall_slot (h : Evolves who net net') {I : NodeSlot → Prop}
    (hI : ∀ n ≥ net.nextSerial, ∀ c c', SlotChange who n c c' → I c → I c')
    (hslot : ∀ i, I (net.connections i)) (i : Fin maxOpenConnections) :
  I (net'.connections i)
  := by
  induction h with
  | refl => exact hslot i
  | same h hconn hnext ih =>
    rw [hconn]
    exact ih
  | @slot net' net'' h j c hchange hconn hnext ih =>
    rw [hconn]
    by_cases hi : i = j
    · subst hi
      rw [Function.update_self]
      exact hI _ h.nextSerial _ _ hchange ih
    · rw [Function.update_of_ne hi]
      exact ih

end Evolves

/-- What there is in a slot, but for what is to be written on its connection. -/
def NodeSlot.kept (c : NodeSlot) : NodeSlot :=
  { c with bev := c.bev.map fun b => { b with output := [] } }

theorem NodeSlot.kept_bev_eq_none {c : NodeSlot} :
  c.kept.bev = none ↔ c.bev = none
  := Option.map_eq_none_iff

/-- The table `net'` comes from `net` by changes to the slot `own` and to slots that were
empty, and by writing on connections. -/
inductive Touches (who : Origin) (own : Option (Fin maxOpenConnections)) (net : NodeNet) :
    NodeNet → Prop where
  | refl : Touches who own net net
  | same {net' net'' : NodeNet} (h : Touches who own net net')
      (hconn : net''.connections = net'.connections) (hnext : net'.nextSerial ≤ net''.nextSerial) :
      Touches who own net net''
  | slot {net' net'' : NodeNet} (h : Touches who own net net') {i : Fin maxOpenConnections}
      {c : NodeSlot} (hchange : SlotChange who net'.nextSerial (net'.connections i) c)
      (hi : (own = some i ∨ (net.connections i).bev = none)
        ∨ NodeSlot.kept c = NodeSlot.kept (net'.connections i))
      (hconn : net''.connections = Function.update net'.connections i c)
      (hnext : net'.nextSerial ≤ net''.nextSerial) : Touches who own net net''

namespace Touches

variable {who : Origin} {own : Option (Fin maxOpenConnections)} {net net' net'' : NodeNet}
  {i : Fin maxOpenConnections}

/-- Whatever slots change, the table evolves. -/
theorem evolves (h : Touches who own net net') :
  Evolves who net net'
  := by
  induction h with
  | refl => exact Evolves.refl
  | same _ hconn hnext ih => exact ih.same hconn hnext
  | slot _ hchange _ hconn hnext ih => exact ih.slot hchange hconn hnext

/-- Another connection is left alone. -/
theorem kept (h : Touches who own net net') (hown : own ≠ some i)
    (htaken : (net.connections i).bev ≠ none) :
  NodeSlot.kept (net'.connections i) = NodeSlot.kept (net.connections i)
  := by
  induction h with
  | refl => rfl
  | same _ hconn _ ih =>
    rw [hconn]
    exact ih
  | @slot net' net'' _ j c _ hj hconn _ ih =>
    rw [hconn]
    by_cases hij : i = j
    · subst hij
      rw [Function.update_self]
      rcases hj with (hj | hj) | hj
      · exact absurd hj hown
      · exact absurd hj htaken
      · exact hj.trans ih
    · rw [Function.update_of_ne hij]
      exact ih

/-- A slot that is empty is the own one or was empty before. -/
theorem free (h : Touches who own net net') (hi : (net'.connections i).bev = none) :
  own = some i ∨ (net.connections i).bev = none
  := by
  by_cases hown : own = some i
  · exact Or.inl hown
  · right
    by_contra htaken
    apply htaken
    rw [← NodeSlot.kept_bev_eq_none, ← h.kept hown htaken, NodeSlot.kept_bev_eq_none]
    exact hi

theorem modify (h : Touches who own net net') (hown : own = some i) {f : NodeSlot → NodeSlot}
    (hchange : SlotChange who net'.nextSerial (net'.connections i) (f (net'.connections i))) :
  Touches who own net (net'.modify i f)
  := h.slot hchange (Or.inl (Or.inl hown)) rfl le_rfl

theorem modifyBev (h : Touches who own net net') (hown : own = some i)
    {f : Bufferevent → Bufferevent} (hf : ∀ b, (f b).serial = b.serial) :
  Touches who own net (net'.modifyBev i f)
  := h.modify hown (SlotChange.modifyBev hf)

/-- Bytes may be written on any connection. -/
theorem write (h : Touches who own net net') (i : Fin maxOpenConnections) (bytes : List UInt8) :
  Touches who own net (net'.write i bytes)
  := by
  have hkept (c : NodeSlot) :
      NodeSlot.kept { c with bev := c.bev.map fun b => { b with output := b.output ++ bytes } }
        = c.kept := by
    simp only [NodeSlot.kept, Option.map_map]
    rfl
  refine h.slot (SlotChange.modifyBev ?_) (Or.inr (hkept _)) rfl le_rfl
  intro b
  rfl

theorem close (h : Touches who own net net') {connection : ℤ} (hown : own = netSlot connection) :
  Touches who own net (netConnectionClose net' connection)
  := by
  rw [netConnectionClose]
  split
  · rename_i hi
    exact h.modify (hown.trans hi) (SlotChange.close)
  · exact h

theorem getBuffer (h : Touches who own net net') {connection : ℤ}
    {r : Option (Fin maxOpenConnections × Bufferevent) × NodeNet}
    (hr : netConnectionGetBuffer net' connection = r) :
  Touches who own net r.2
  := by
  rw [← hr, netConnectionGetBuffer]
  split
  · exact h
  · split
    · exact h.same rfl le_rfl
    · exact h

theorem set (h : Touches who own net net') {connection : ℤ} (hown : own = netSlot connection)
    {f : NodeSlot → NodeSlot} (hchange : ∀ n c, SlotChange who n c (f c)) :
  Touches who own net (netConnectionSet net' connection f).2
  := by
  rw [netConnectionSet]
  split
  · rename_i hi
    exact h.modify (hown.trans hi) (hchange _ _)
  · exact h

/-- A connection is closed, and what its slot points to is freed. -/
theorem closeFree (h : Touches who own net net') {connection : ℤ}
    (hown : own = netSlot connection) (arg : CbArg) :
  Touches who own net
    (netConnectionSet (netConnectionClose net' connection) connection (NodeNet.dangle arg)).2
  := by
  have hclose := h.close hown
  rw [netConnectionClose] at hclose ⊢
  rw [netConnectionSet]
  cases hi : netSlot connection with
  | none => exact h
  | some i =>
    simp only [hi] at hclose ⊢
    apply hclose.modify (hown.trans hi)
    apply SlotChange.dangle
    left
    simp [NetServer.modify]

/-- An empty slot is taken. -/
theorem take (h : Touches who own net net') (hi : netEmptyConnectionSlot net' = some i)
    {c : NodeSlot} (hchange : SlotChange who net'.nextSerial (net'.connections i) c)
    (hconn : net''.connections = Function.update net'.connections i c)
    (hnext : net'.nextSerial ≤ net''.nextSerial) :
  Touches who own net net''
  := h.slot hchange (Or.inl (h.free (netEmptyConnectionSlot_bev hi))) hconn hnext

/-- A message is sent on a connection that is made for it. -/
theorem attempt (h : Touches who own net net') {msg : NodeMessage} {readCb : Option DataCb}
    {eventCb : Option EventCb} {cbArg : Option CbArg} {result : ℤ × NodeNet}
    (hattempt : Attempt net' msg readCb eventCb cbArg result)
    (htake : ∀ c i b, b.serial = net'.nextSerial →
      SlotChange who net'.nextSerial c (taken c i b msg readCb eventCb cbArg)) :
  Touches who own net result.2
  := by
  cases hattempt with
  | none calls => exact h.same rfl le_rfl
  | @lost i hi calls => exact h.take hi (SlotChange.close) rfl (Nat.le_succ _)
  | @refused i hi calls =>
    -- the slot is taken and given back
    have htaken : Touches who own net { net' with
        connections := Function.update net'.connections i
          (taken (net'.connections i) i (net'.freshBev msg.dest.IP) msg readCb eventCb cbArg)
        nextSerial := net'.nextSerial + 1
        calls := calls } :=
      h.take hi (htake (net'.connections i) i (net'.freshBev msg.dest.IP) rfl) rfl (Nat.le_succ _)
    refine htaken.slot (i := i) (SlotChange.close)
      (Or.inl (h.free (netEmptyConnectionSlot_bev hi))) ?_ le_rfl
    simp
  | @unsent i hi calls => exact h.take hi (htake _ i _ rfl) rfl (Nat.le_succ _)
  | @sent i hi calls => exact h.take hi (htake _ i _ rfl) rfl (Nat.le_succ _)

theorem request (h : Touches .opened own net net') (msg : NodeMessage) {readCb : Option DataCb}
    {eventCb : Option EventCb} {cbArg : Option CbArg}
    (hrequest : NodeRequest readCb eventCb cbArg) :
  Touches .opened own net (nodeConnectAndSendMessage net' msg readCb eventCb cbArg).2
  := h.attempt (nodeConnectAndSendMessage_attempt net' msg readCb eventCb cbArg)
    fun _ i _ hb => SlotChange.request i hb msg hrequest rfl

end Touches

/-! ### The calls of a node -/

/-- Whatever a node calls touches no slot that is taken. -/
theorem Calls.touches {ok : FoundCb → Prop} {own : Option (Fin maxOpenConnections)}
    {net net' : NodeNet} (h : Calls ok net net') {net₀ : NodeNet}
    (h₀ : Touches .opened own net₀ net) :
  Touches .opened own net₀ net'
  := by
  induction h with
  | refl => exact h₀
  | @findSuccessorRemote net' h self n id cb hcb ih =>
    have hask : Touches .opened own net₀ net'.ask.2 := ih.same rfl le_rfl
    have hsent := hask.request ((Request.findSuccessor id).message n)
      (NodeRequest.find { cb := cb, node := net'.ask.1.node, hops := net'.ask.1.hops })
    simp only [Remote.findSuccessorRemote, NodeNet.findSuccessorRemote]
    split_ifs
    · exact hsent
    · split
      · rename_i hbuf
        exact hsent.getBuffer hbuf
      · rename_i hbuf
        exact (hsent.getBuffer hbuf).write _ _
  | @getPredecessorRemote net' h self n cb hcb ih =>
    have hask : Touches .opened own net₀ net'.ask.2 := ih.same rfl le_rfl
    exact hask.request (Request.predecessor.message n)
      (NodeRequest.find { cb := cb, node := net'.ask.1.node, hops := net'.ask.1.hops })
  | notifyNode h self n ih =>
    have hsent := ih.request ((Request.notify self.self.id self.self.port).message n)
      NodeRequest.notify
    simp only [Remote.notifyNode, NodeNet.notifyNode]
    split
    · rename_i hbuf
      exact (hsent.getBuffer hbuf).same rfl le_rfl
    · rename_i hbuf
      exact (hsent.getBuffer hbuf).write _ _
  | checkNode h self n cb ih => exact ih.request (Request.alive.message n) (NodeRequest.probe cb)
  | successorFoundForRemote h data n hops ih =>
    simp only [Remote.successorFoundForRemote, NodeNet.successorFoundForRemote]
    split
    · rename_i hbuf
      exact (ih.getBuffer hbuf).same rfl le_rfl
    · rename_i hbuf
      exact (ih.getBuffer hbuf).write _ _
  | useFreed h ih => exact ih.same rfl le_rfl

theorem Calls.evolves {ok : FoundCb → Prop} {net net' : NodeNet} (h : Calls ok net net') :
  Evolves .opened net net'
  := (h.touches (Touches.refl : Touches .opened none net net)).evolves

/-- Whatever a node calls leaves every connection alone. -/
theorem Calls.kept {ok : FoundCb → Prop} {net net' : NodeNet} (h : Calls ok net net')
    {i : Fin maxOpenConnections} (htaken : (net.connections i).bev ≠ none) :
  NodeSlot.kept (net'.connections i) = NodeSlot.kept (net.connections i)
  := (h.touches (Touches.refl : Touches .opened none net net)).kept nofun htaken

/-! ### The handlers of a node -/

section

variable {own : Option (Fin maxOpenConnections)} {net : NodeNet} {p : NodeProcess} {connection : ℤ}

theorem Acts.touches {ok : FoundCb → Prop} {found : Bool} {q : NodeProcess}
    (hacts : Acts ok found p q) (h : Touches .opened own net p.net) :
  Touches .opened own net q.net
  := hacts.calls.touches h

/-- A handler uses the `bufferevent` of its own connection. -/
theorem Touches.withBuffer (h : Touches .opened own net p.net)
    {f : NodeProcess → Fin maxOpenConnections → Bufferevent → NodeProcess}
    (hf : ∀ i b, netSlot connection = some i → Touches .opened own net (f p i b).net) :
  Touches .opened own net (p.withBuffer connection f).net
  := by
  rcases withBuffer_cases p connection with hcrash | ⟨i, b, rfl, hb⟩
  · rw [hcrash]
    exact h.same rfl le_rfl
  · rw [withBuffer_of_bev hb]
    exact hf i b (netSlot_coe i)

/-- A handler that is given an argument of another kind crashes the process. -/
theorem Touches.crash (h : Touches .opened own net p.net) :
  Touches .opened own net p.crash.net
  := h.same rfl le_rfl

theorem Touches.freeMsg (h : Touches .opened own net p.net) (hown : own = netSlot connection)
    (type : UInt8) (len : UInt32) :
  Touches .opened own net (p.free connection (.msg type len)).net
  := h.set hown fun _ _ => SlotChange.dangle (Or.inr ⟨type, len, rfl⟩)

theorem Touches.setInput (h : Touches .opened own net p.net) {i : Fin maxOpenConnections}
    (hown : own = some i) (rest : List UInt8) :
  Touches .opened own net (p.setInput i rest).net
  := h.modifyBev hown fun _ => rfl

theorem Touches.ask (h : Touches .opened own net p.net) :
  Touches .opened own net p.ask.2.net
  := h.same rfl le_rfl

theorem nodeFindSuccessor_touches (h : Touches .opened own net p.net) (id : HashType)
    (cb : FoundCb) :
  Touches .opened own net (nodeFindSuccessor p id cb).2.net
  := by
  have hacts : Acts (fun _ => True) true p (nodeFindSuccessor p id cb).2 :=
    nodeFindSuccessor_acts (fun _ _ => trivial) (Acts.refl p) id trivial
  exact hacts.touches h

theorem nodeFound_touches (h : Touches .opened own net p.net) (data : NodeFoundCbData) :
  Touches .opened own net (nodeFound p data).net
  := by
  have hacts : Acts (fun _ => True) true p (nodeFound p data) :=
    nodeFound_acts (fun _ _ => trivial) (Acts.refl p) data
  exact hacts.touches h

theorem handleSuccRequest_touches (h : Touches .opened own net p.net)
    (hown : own = netSlot connection) (arg : Option CbArg) :
  Touches .opened own net (handleSuccRequest p connection arg).net
  := by
  unfold handleSuccRequest
  split
  · apply h.withBuffer
    intro i b hi
    dsimp only
    have hread := h.ask.setInput (hown.trans hi) (u32.fill p.ask.1.node.id b.input).2
    apply nodeFindSuccessor_touches
    exact hread
  · exact h.crash

theorem handlePredRequest_touches (h : Touches .opened own net p.net) (connection : ℤ)
    (arg : Option CbArg) :
  Touches .opened own net (handlePredRequest p connection arg).net
  := by
  unfold handlePredRequest
  split
  · exact h.withBuffer fun i _ _ => h.write i _
  · exact h.crash

theorem handleAliveRequest_touches (h : Touches .opened own net p.net) (connection : ℤ)
    (arg : Option CbArg) :
  Touches .opened own net (handleAliveRequest p connection arg).net
  := by
  unfold handleAliveRequest
  split
  · exact h.withBuffer fun i _ _ => h.ask.write i _
  · exact h.crash

theorem handleNotifRequest_touches (h : Touches .opened own net p.net)
    (hown : own = netSlot connection) (arg : Option CbArg) :
  Touches .opened own net (handleNotifRequest p connection arg).net
  := by
  unfold handleNotifRequest
  split
  · apply h.withBuffer
    intro i b hi
    dsimp only
    split
    · exact (h.ask.close hown).close hown
    · exact (h.ask.setInput (hown.trans hi) _).close hown
  · exact h.crash

theorem handleNodeMessage_touches (h : Touches .opened own net p.net)
    (hown : own = netSlot connection) (arg : Option CbArg) :
  Touches .opened own net (handleNodeMessage p connection arg).net
  := by
  unfold handleNodeMessage
  split
  · exact Touches.freeMsg (p := p.emit _) h hown _ _
  · exact h.crash

/-- The three setters that are called for a message to the application change one slot. -/
theorem deferBody_touches (h : Touches .opened own net p.net) (hown : own = netSlot connection)
    (type : UInt8) (len : UInt32) :
  Touches .opened own net (deferBody p connection type len).net
  := by
  have hread : ∀ cb : DataCb, ¬ cb.ReadsReply →
      Touches .opened own net (netConnectionSetReadCb p.net connection (some cb)).2 := by
    intro cb hcb
    refine h.set hown fun _ _ => SlotChange.setReadCb ?_
    rintro d ⟨⟩
    exact hcb
  rw [deferBody]
  dsimp only
  split_ifs
  · exact hread _ not_false
  · exact hread _ not_false
  · exact hread _ not_false
  · exact hread _ not_false
  · have hset : Touches .opened own net (netConnectionSet p.net connection fun c => { c with
        readCb := some .handleNodeMessage
        evtCb := some .incomingEventMsgCb
        upperCbArg := some (.msg type len) }).2 :=
      h.set hown fun _ _ => SlotChange.defer type len
    simp only [netConnectionSetReadCb, netConnectionSetEventCb, netConnectionSetCbArg,
      netConnectionSet] at hset ⊢
    cases hi : netSlot connection with
    | none => exact h
    | some i =>
      simp only [hi, NetServer.modify, Function.update_self, Function.update_idem] at hset ⊢
      exact hset
  · exact h

theorem handleBody_touches (h : Touches .opened own net p.net) (hown : own = netSlot connection)
    (type : UInt8) (len : UInt32) :
  Touches .opened own net (handleBody p connection type len).net
  := by
  rw [handleBody]
  split_ifs
  · exact handleSuccRequest_touches h hown _
  · exact handlePredRequest_touches h connection _
  · exact handleAliveRequest_touches h connection _
  · exact handleNotifRequest_touches h hown _
  · exact handleNodeMessage_touches h hown _
  · exact h

theorem incomingReadCb_touches (h : Touches .opened own net p.net)
    (hown : own = netSlot connection) (arg : Option CbArg) :
  Touches .opened own net (incomingReadCb p connection arg).net
  := by
  unfold incomingReadCb
  split
  · apply h.withBuffer
    intro i b hi
    dsimp only
    have hheader := h.ask.setInput (hown.trans hi)
      (nodeParseMessageHeader p.ask.1.byte b.input).2
    split
    · exact (deferBody_touches hheader hown _ _).modifyBev (hown.trans hi) fun _ => rfl
    · exact handleBody_touches hheader hown _ _
  · exact h.crash

theorem nodeFoundRemoteCb_touches (h : Touches .opened own net p.net)
    (hown : own = netSlot connection) (arg : Option CbArg) :
  Touches .opened own net (nodeFoundRemoteCb p connection arg).net
  := by
  unfold nodeFoundRemoteCb
  split
  · apply h.withBuffer
    intro i b hi
    dsimp only
    apply nodeFound_touches
    exact h.ask.closeFree hown _
  · exact h.crash

theorem nodeCheckResult_touches (h : Touches .opened own net p.net) (cb : CheckCb)
    (success : Bool) :
  Touches .opened own net (nodeCheckResult p cb success).net
  := by
  have hacts : Acts (fun _ => True) true p (nodeCheckResult p cb success) :=
    nodeCheckResult_acts (Acts.refl p) cb success
  exact hacts.touches h

theorem nodeCheckNodeReply_touches (h : Touches .opened own net p.net)
    (hown : own = netSlot connection) (arg : Option CbArg) :
  Touches .opened own net (nodeCheckNodeReply p connection arg).net
  := by
  unfold nodeCheckNodeReply
  split
  · apply h.withBuffer
    intro i b hi
    dsimp only
    split
    · exact h.crash
    · exact (nodeCheckResult_touches h _ _).closeFree hown _
  · exact h.crash

/-! ### Whatever happens -/

/-- A callback is called for the connection `own`. -/
theorem runDataCb_touches (h : Touches .opened own net p.net)
    {call : Option (DataCb × ℤ × Option CbArg)} (hown : ∀ c ∈ call, own = netSlot c.2.1) :
  Touches .opened own net (runDataCb p call).net
  := by
  unfold runDataCb
  split
  · exact nodeFoundRemoteCb_touches h (hown _ rfl) _
  · exact nodeCheckNodeReply_touches h (hown _ rfl) _
  · exact incomingReadCb_touches h (hown _ rfl) _
  · exact handleSuccRequest_touches h (hown _ rfl) _
  · exact handlePredRequest_touches h _ _
  · exact handleAliveRequest_touches h _ _
  · exact handleNotifRequest_touches h (hown _ rfl) _
  · exact handleNodeMessage_touches h (hown _ rfl) _
  · exact h
  · exact h

theorem runEventCb_touches (h : Touches .opened own net p.net) (what : UInt16)
    {call : Option (EventCb × ℤ × Option CbArg)} (hown : ∀ c ∈ call, own = netSlot c.2.1) :
  Touches .opened own net (runEventCb p what call).net
  := by
  unfold runEventCb
  split
  · exact h
  · unfold nodeNotifyRepEvent
    split
    · split_ifs
      · exact h.close (hown _ rfl)
      · exact h
    · exact h.crash
  · unfold nodeCheckNodeEvent
    split
    · split_ifs
      · exact (nodeCheckResult_touches h _ _).closeFree (hown _ rfl) _
      · exact h.closeFree (hown _ rfl) _
      · exact h
    · exact h.crash
  · unfold incomingEventCb
    split
    · split_ifs
      · exact h.close (hown _ rfl)
      · exact h
    · exact h.crash
  · unfold incomingEventMsgCb
    split
    · split_ifs
      · exact h.close (hown _ rfl)
      · exact h
    · exact h.crash
  · exact h
  · exact h

/-- The callback in the slot `i` is called for the connection in it. -/
theorem call_own {C : Type} {i : Fin maxOpenConnections} {cb : Option C} {arg : Option CbArg} :
  ∀ c ∈ cb.map (fun cb => (cb, (i.val : ℤ), arg)), some i = netSlot c.2.1
  := by
  intro c hc
  obtain ⟨cb, -, rfl⟩ := Option.map_eq_some_iff.mp hc
  exact (netSlot_coe i).symm

theorem arrive_touches (p : NodeProcess) (i : Fin maxOpenConnections) (bytes : List UInt8) :
  Touches .opened (some i) p.net (arrive p i bytes).net
  := by
  unfold arrive
  split
  · split
    · exact Touches.refl
    · have hinput (rest : List UInt8) : Touches .opened (some i) p.net (p.setInput i rest).net :=
        Touches.setInput Touches.refl rfl rest
      dsimp only
      split
      · exact hinput _
      · rw [netConnectionReadCb_coe]
        exact runDataCb_touches (hinput _) call_own
  · exact Touches.refl

/-- The application's own connections. -/
theorem Touches.foreign (net : NodeNet) (msg : NodeMessage) (readCb eventCb cbArg : Option ℕ) :
  Touches .foreign own net (nodeConnectAndSendMessage net msg (readCb.map .app)
    (eventCb.map .app) (cbArg.map .app)).2
  := Touches.refl.attempt (nodeConnectAndSendMessage_attempt net msg _ _ _)
    fun _ i _ hb => SlotChange.foreign i hb msg readCb eventCb cbArg rfl

theorem netConnectionCreate_touches (net : NodeNet) (IP : UInt32) (port : UInt16) :
  Touches .foreign own net (netConnectionCreate net IP port).2
  := by
  cases hi : netEmptyConnectionSlot net with
  | none =>
    rw [netConnectionCreate, hi]
    exact Touches.refl
  | some i =>
    rw [netConnectionCreate_of_slot hi]
    split_ifs
    · have hchange : SlotChange .foreign net.nextSerial (net.connections i)
          (taken (net.connections i) i (net.freshBev IP) ⟨⟨0, IP, port⟩, 0, 0, none⟩ none none
            none) :=
        SlotChange.foreign (b := net.freshBev IP) i rfl _ none none none rfl
      exact Touches.refl.take hi hchange rfl (Nat.le_succ _)
    · exact Touches.refl.take hi (SlotChange.close) rfl (Nat.le_succ _)
    · exact Touches.refl.same rfl le_rfl

theorem listenEvtCb_touches (net : NodeNet) (peer : UInt32) :
  Touches .accepted own net
    (listenEvtCb net peer (incomingConnection .incomingReadCb .incomingEventCb .self))
  := by
  cases hi : netEmptyConnectionSlot net with
  | none =>
    rw [listenEvtCb, hi]
    exact Touches.refl
  | some i =>
    rw [listenEvtCb_of_slot hi]
    split_ifs
    · have hchange : SlotChange .accepted net.nextSerial (net.connections i)
          (accepted (net.connections i) i (net.freshBev peer) .incomingReadCb .incomingEventCb
            .self) :=
        SlotChange.accept (b := net.freshBev peer) i rfl rfl
      exact Touches.refl.take hi hchange rfl (Nat.le_succ _)
    · exact Touches.refl.take hi (SlotChange.close) rfl (Nat.le_succ _)
    · exact Touches.refl.same rfl le_rfl

theorem nodeSendMessage_touches (net : NodeNet) (msg : NodeMessage) (connection : ℤ) :
  Touches .opened (netSlot connection) net (nodeSendMessage net msg connection).2
  := by
  rw [nodeSendMessage]
  split
  · rename_i hbuf
    exact Touches.refl.getBuffer hbuf
  · rename_i i b net' hbuf
    have hget : Touches .opened (netSlot connection) net net'.ask.2 :=
      (Touches.refl.getBuffer hbuf).same rfl le_rfl
    dsimp only
    split
    · exact hget
    · have hwrite := hget.write i msg.text
      rw [netConnectionActivate]
      split
      · exact hwrite
      · rename_i j hj
        split
        · exact hwrite.same rfl le_rfl
        · have hask : Touches .opened (netSlot connection) net
              (net'.ask.2.write i msg.text).ask.2 := hwrite.same rfl le_rfl
          dsimp only
          split
          · exact hask.close rfl
          · exact hask.modifyBev hj fun _ => rfl

end

namespace Occurrence

/-- The slot whose connection something happens on. -/
def slot : Occurrence → Option (Fin maxOpenConnections)
  | .data i _ | .drained i | .event i _ => some i
  | _ => none

/-- The slot of the connection that the application does something to. -/
def named : Occurrence → Option (Fin maxOpenConnections)
  | .send _ connection | .setReadCb connection _ | .setWriteCb connection _
  | .setEventCb connection _ | .setCbArg connection _ | .close connection => netSlot connection
  | _ => none

/-- The slot of the connection that an occurrence is about. -/
def own (o : Occurrence) : Option (Fin maxOpenConnections) :=
  o.slot.or o.named

end Occurrence

/-- Whatever happens to a process touches the slot that it is about, and slots that were
empty. -/
theorem occur_touches (p : NodeProcess) (o : Occurrence) :
  Touches o.origin o.own p.net (p.occur o).net
  := by
  have hok : ∀ cb, ¬ cb.Relays → (fun _ : FoundCb => True) cb := fun _ _ => trivial
  have hsame : Acts (fun _ => True) true p p := Acts.refl p
  rw [Process.occur]
  split
  · exact Touches.refl
  · cases o with
    | data i bytes => exact arrive_touches p i bytes
    | drained i =>
      rw [Occurrence.handle]
      split
      · rw [netConnectionWriteCb_coe]
        exact runDataCb_touches Touches.refl call_own
      · exact Touches.refl
    | event i what =>
      rw [Occurrence.handle]
      split
      · rw [netConnectionEventCb_coe]
        exact runEventCb_touches Touches.refl what call_own
      · exact Touches.refl
    | accept peer => exact listenEvtCb_touches p.net peer
    | stabilise => exact (nodeNetworkStabalize_acts hok hsame).touches Touches.refl
    | fixFingers => exact (nodeFixFingers_acts hok hsame).touches Touches.refl
    | checkPred => exact (nodeCheckPredecessor_acts hsame).touches Touches.refl
    | checkSuccs => exact (nodeCheckSuccessors_acts hsame).touches Touches.refl
    | updateSuccs => exact (nodeUpdateSuccs_acts hok hsame).touches Touches.refl
    | setNodeMsgHandler cb cbArg =>
      exact (nodeSetNodeMsgHandler_acts hsame cb cbArg).touches Touches.refl
    | joined arg => exact (nodeNetworkJoined_acts hok hsame arg).touches Touches.refl
    | networkCreate arg => exact (nodeNetworkCreate_acts hsame arg).touches Touches.refl
    | networkJoin node arg => exact (nodeNetworkJoin_acts hok hsame node arg).touches Touches.refl
    | findSuccessor id arg =>
      exact (nodeFindSuccessor_acts hok hsame id (hok (.app arg) not_false)).touches Touches.refl
    | connectAndSend msg readCb eventCb cbArg => exact Touches.foreign p.net msg _ _ _
    | send msg connection => exact nodeSendMessage_touches p.net msg connection
    | create IP port => exact netConnectionCreate_touches p.net IP port
    | setReadCb connection cb =>
      refine Touches.refl.set rfl fun _ _ => SlotChange.setReadCb ?_
      intro d hd
      obtain ⟨k, -, rfl⟩ := Option.map_eq_some_iff.mp hd
      exact not_false
    | setWriteCb connection cb =>
      exact Touches.refl.set rfl fun _ _ => SlotChange.setWriteCb cb
    | setEventCb connection cb =>
      exact Touches.refl.set rfl fun _ _ => SlotChange.setEventCb cb
    | setCbArg connection cbArg =>
      exact Touches.refl.set rfl fun _ _ => SlotChange.setCbArg cbArg
    | close connection => exact Touches.refl.close rfl

/-- Whatever happens to a process makes its table evolve. -/
theorem occur_evolves (p : NodeProcess) (o : Occurrence) :
  Evolves o.origin p.net (p.occur o).net
  := (occur_touches p o).evolves

/-- What happens elsewhere leaves a connection alone. -/
theorem occur_kept (p : NodeProcess) {o : Occurrence} {i : Fin maxOpenConnections}
    (hslot : o.slot ≠ some i) (hnamed : o.named ≠ some i)
    (htaken : (p.net.connections i).bev ≠ none) :
  NodeSlot.kept ((p.occur o).net.connections i) = NodeSlot.kept (p.net.connections i)
  := by
  apply (occur_touches p o).kept _ htaken
  intro hown
  rcases Option.or_eq_some_iff.mp hown with hown | ⟨-, hown⟩
  · exact hslot hown
  · exact hnamed hown
