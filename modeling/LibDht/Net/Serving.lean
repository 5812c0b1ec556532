import LibDht.Net.Delivery

/-!
# Events on a connection

Data arrives on a connection, or its event callback is due, one after another; and the
application, when it is handed a message, drains its body. A callback is called with the
argument that is in the slot. On a connection that a node accepted this is the node, or a
message that waits for its body, and it stays in use until that message is handed over.
-/

/-- What happens on a connection: data arrives, or its event callback is due. -/
inductive ConnectionEvent where
  | data (bytes : List UInt8)
  | event (what : UInt16)

namespace ConnectionEvent

/-- The occurrence of the process, for the connection in the slot `i`. -/
def occurrence (i : Fin maxOpenConnections) : ConnectionEvent → Occurrence
  | .data bytes => .data i bytes
  | .event what => .event i what

/-- The argument that a callback of the connection in the slot `i` is called with, when one
is called. -/
def calledWith (p : NodeProcess) (i : Fin maxOpenConnections) : ConnectionEvent → Option CbArg
  | .data bytes =>
    (p.net.connections i).bev.bind fun b =>
      if p.net.crashed || !b.enabled || bytes.isEmpty || (b.input ++ bytes).length < b.low then none
      else (netConnectionReadCb p.net i.val).bind fun call => call.2.2
  | .event _ =>
    if p.net.crashed || !p.net.isEnabled i then none
    else (netConnectionEventCb p.net i.val).bind fun call => call.2.2

end ConnectionEvent

/-- The messages that were handed to the application: the slot, the type, the length, and the
number of bytes that were there, in order. -/
def nodeMessages (log : List Event) : List (ℤ × UInt8 × UInt32 × ℕ) :=
  log.filterMap fun
    | .nodeMessage _ _ connection type len available => some (connection, type, len, available)
    | _ => none

/-- The application drains the body of a message that it is handed. -/
def drainBody (p : NodeProcess) : Event → NodeProcess
  | .nodeMessage _ _ connection _ len _ =>
    match netSlot connection with
    | some i =>
      { p with net := p.net.modifyBev i fun b => { b with input := b.input.drop len.toNat } }
    | none => p
  | _ => p

namespace Process

/-- One thing happens to a process whose application drains the messages it is handed. -/
def occurDraining (p : NodeProcess) (o : Occurrence) : NodeProcess :=
  ((p.occur o).log.drop p.log.length).foldl drainBody (p.occur o)

/-- Events on the connection with a serial. They are lost when it is not in its slot any
more. -/
def serve (p : NodeProcess) (i : Fin maxOpenConnections) (serial : ℕ)
    (events : List ConnectionEvent) : NodeProcess :=
  events.foldl (fun p e =>
    if p.net.serialAt i.val = some serial then p.occurDraining (e.occurrence i) else p) p

end Process

/-! ### The log -/

@[simp]
theorem nodeMessages_append (l l' : List Event) :
  nodeMessages (l ++ l') = nodeMessages l ++ nodeMessages l'
  := List.filterMap_append ..

@[simp]
theorem drainBody_log (p : NodeProcess) (e : Event) :
  (drainBody p e).log = p.log
  := by
  unfold drainBody
  split
  · split <;> rfl
  · rfl

@[simp]
theorem drainBody_crashed (p : NodeProcess) (e : Event) :
  (drainBody p e).net.crashed = p.net.crashed
  := by
  unfold drainBody
  split
  · split <;> rfl
  · rfl

theorem foldl_drainBody_crashed (p : NodeProcess) (es : List Event) :
  (es.foldl drainBody p).net.crashed = p.net.crashed
  := by
  induction es generalizing p with
  | nil => rfl
  | cons e es ih => rw [List.foldl_cons, ih, drainBody_crashed]

theorem foldl_drainBody_log (p : NodeProcess) (es : List Event) :
  (es.foldl drainBody p).log = p.log
  := by
  induction es generalizing p with
  | nil => rfl
  | cons e es ih => rw [List.foldl_cons, ih, drainBody_log]

section

variable {p : NodeProcess} {i : Fin maxOpenConnections} {s : ℕ}

theorem occurDraining_eq {o : Occurrence} {es : List Event} (h : (p.occur o).log = p.log ++ es) :
  p.occurDraining o = es.foldl drainBody (p.occur o)
  := by
  rw [Process.occurDraining, h, List.drop_left]

theorem occurDraining_log (p : NodeProcess) (o : Occurrence) :
  ∃ es, (p.occur o).log = p.log ++ es ∧ (p.occurDraining o).log = p.log ++ es
  := by
  obtain ⟨es, hes, -⟩ := (occur_happens p o).log
  refine ⟨es, hes, ?_⟩
  rw [occurDraining_eq hes, foldl_drainBody_log, hes]

theorem serve_append (p : NodeProcess) (i : Fin maxOpenConnections) (s : ℕ)
    (events events' : List ConnectionEvent) :
  p.serve i s (events ++ events') = (p.serve i s events).serve i s events'
  := List.foldl_append ..

theorem serve_cons (p : NodeProcess) (i : Fin maxOpenConnections) (s : ℕ) (e : ConnectionEvent)
    (events : List ConnectionEvent) :
  p.serve i s (e :: events) = (p.serve i s [e]).serve i s events
  := serve_append p i s [e] events

/-! ### Events one after another -/

/-- What holds of every event on a connection: in the state that it finds, and with what comes
after it. -/
def Throughout (P : NodeProcess → ConnectionEvent → List ConnectionEvent → Prop)
    (p : NodeProcess) (i : Fin maxOpenConnections) (s : ℕ) (events : List ConnectionEvent) :
    Prop :=
  ∀ before e after, events = before ++ e :: after → P (p.serve i s before) e after

section

variable {P : NodeProcess → ConnectionEvent → List ConnectionEvent → Prop}

theorem throughout_nil :
  Throughout P p i s []
  := by
  intro before e after hsplit
  simp at hsplit

theorem throughout_cons {e : ConnectionEvent} {events : List ConnectionEvent} :
  Throughout P p i s (e :: events) ↔ P p e events ∧ Throughout P (p.serve i s [e]) i s events
  := by
  constructor
  · intro h
    refine ⟨h [] e events rfl, ?_⟩
    intro before e' after hsplit
    rw [← serve_cons]
    exact h (e :: before) e' after (by rw [hsplit, List.cons_append])
  · rintro ⟨hfirst, hrest⟩ before e' after hsplit
    rcases List.cons_eq_append_iff.mp hsplit with ⟨rfl, hcons⟩ | ⟨before', rfl, hsplit'⟩
    · obtain ⟨rfl, rfl⟩ := List.cons.inj hcons
      exact hfirst
    · rw [serve_cons]
      exact hrest before' e' after hsplit'

theorem Throughout.of_append {events events' : List ConnectionEvent}
    (h : Throughout P p i s (events ++ events')) :
  Throughout P (p.serve i s events) i s events'
  := by
  intro before e after hsplit
  rw [← serve_append]
  exact h (events ++ before) e after (by rw [hsplit, List.append_assoc])

end

/-! ### Arguments that are in use -/

/-- The connection in the slot `i` is closed, or its argument is the node. -/
def SelfOrClosed (p : NodeProcess) (i : Fin maxOpenConnections) : Prop :=
  (p.net.connections i).bev = none ∨ (p.net.connections i).upperCbArg = some .self

/-- What a callback is called with is the argument of a connection that is open. -/
theorem ConnectionEvent.calledWith_eq_some {e : ConnectionEvent} {arg : CbArg}
    (h : e.calledWith p i = some arg) :
  p.net.crashed = false ∧ (p.net.connections i).bev ≠ none
    ∧ (p.net.connections i).upperCbArg = some arg
  := by
  cases e with
  | data bytes =>
    rw [ConnectionEvent.calledWith] at h
    obtain ⟨b, hb, h⟩ := Option.bind_eq_some_iff.mp h
    split_ifs at h with hstop
    obtain ⟨call, hcb, h⟩ := Option.bind_eq_some_iff.mp h
    rw [netConnectionReadCb, netSlot_coe, Option.bind_some] at hcb
    obtain ⟨cb, -, rfl⟩ := Option.map_eq_some_iff.mp hcb
    simp only [Bool.or_eq_true, not_or] at hstop
    exact ⟨Bool.eq_false_of_not_eq_true hstop.1.1.1, by rw [hb]; exact Option.some_ne_none b, h⟩
  | event what =>
    rw [ConnectionEvent.calledWith] at h
    split_ifs at h with hstop
    obtain ⟨call, hcb, h⟩ := Option.bind_eq_some_iff.mp h
    rw [netConnectionEventCb, netSlot_coe, Option.bind_some] at hcb
    obtain ⟨cb, -, rfl⟩ := Option.map_eq_some_iff.mp hcb
    rw [Bool.or_eq_true, not_or] at hstop
    refine ⟨Bool.eq_false_of_not_eq_true hstop.1, ?_, h⟩
    intro hnone
    simp [NodeNet.isEnabled, hnone] at hstop

end

/-! ### Connections that stay open -/

/-- What is open in `net` is open in `net'`, with the same argument. -/
def NodeNet.StaysOpen (net net' : NodeNet) : Prop :=
  ∀ i, (net.connections i).bev ≠ none → (net'.connections i).bev ≠ none
    ∧ (net'.connections i).upperCbArg = (net.connections i).upperCbArg

namespace NodeNet.StaysOpen

variable {net net' net'' : NodeNet}

theorem same (h : net.StaysOpen net') (hconn : net''.connections = net'.connections) :
  net.StaysOpen net''
  := by
  intro i hi
  rw [hconn]
  exact h i hi

theorem write (h : net.StaysOpen net') (j : Fin maxOpenConnections) (bytes : List UInt8) :
  net.StaysOpen (net'.write j bytes)
  := by
  intro i hi
  obtain ⟨hbev, harg⟩ := h i hi
  rw [← harg, NetServer.write, NetServer.modifyBev, NetServer.modify]
  by_cases hj : i = j
  · subst hj
    simpa using hbev
  · simpa [Function.update_of_ne hj] using hbev

/-- What is done to an empty slot does not concern those that are open. -/
theorem update (h : net.StaysOpen net') {j : Fin maxOpenConnections}
    {c : NetConnection DataCb EventCb CbArg} (hj : (net'.connections j).bev = none)
    (hconn : net''.connections = Function.update net'.connections j c) :
  net.StaysOpen net''
  := by
  intro i hi
  obtain ⟨hbev, harg⟩ := h i hi
  have hne : i ≠ j := by
    rintro rfl
    exact hbev hj
  rw [hconn, Function.update_of_ne hne]
  exact ⟨hbev, harg⟩

theorem getBuffer (h : net.StaysOpen net') (connection : ℤ) :
  net.StaysOpen (netConnectionGetBuffer net' connection).2
  := by
  rw [netConnectionGetBuffer]
  split
  · exact h
  · split
    · exact h.same rfl
    · exact h

/-- A connection is made in an empty slot. -/
theorem request (h : net.StaysOpen net') (msg : NodeMessage) (readCb : Option DataCb)
    (eventCb : Option EventCb) (cbArg : Option CbArg) :
  net.StaysOpen (nodeConnectAndSendMessage net' msg readCb eventCb cbArg).2
  := by
  have hattempt := nodeConnectAndSendMessage_attempt net' msg readCb eventCb cbArg
  generalize nodeConnectAndSendMessage net' msg readCb eventCb cbArg = result at hattempt ⊢
  cases hattempt with
  | none calls => exact h.same rfl
  | lost hi calls => exact h.update (netEmptyConnectionSlot_bev hi) rfl
  | refused hi calls => exact h.update (netEmptyConnectionSlot_bev hi) rfl
  | unsent hi calls => exact h.update (netEmptyConnectionSlot_bev hi) rfl
  | sent hi calls => exact h.update (netEmptyConnectionSlot_bev hi) rfl

end NodeNet.StaysOpen

/-- Whatever a node calls leaves connections open that are. -/
theorem Calls.staysOpen {ok : FoundCb → Prop} {net net' : NodeNet} (h : Calls ok net net') :
  net.StaysOpen net'
  := by
  induction h with
  | refl => exact fun i hi => ⟨hi, rfl⟩
  | @findSuccessorRemote net' h self n id cb hcb ih =>
    have hask : net.StaysOpen net'.ask.2 := ih.same rfl
    have hsent := hask.request ((Request.findSuccessor id).message n) (some .nodeFoundRemoteCb)
      (some .nodeRemoteFindEvent)
      (some (.found { cb := cb, node := net'.ask.1.node, hops := net'.ask.1.hops }))
    simp only [Remote.findSuccessorRemote, NodeNet.findSuccessorRemote]
    generalize nodeConnectAndSendMessage net'.ask.2 _ _ _ _ = sent at hsent ⊢
    have hget := hsent.getBuffer sent.1
    split_ifs
    · exact hsent
    · split
      · rename_i hbuf
        rw [hbuf] at hget
        exact hget
      · rename_i hbuf
        rw [hbuf] at hget
        exact hget.write _ _
  | @getPredecessorRemote net' h self n cb hcb ih =>
    have hask : net.StaysOpen net'.ask.2 := ih.same rfl
    exact hask.request (Request.predecessor.message n) (some .nodeFoundRemoteCb)
      (some .nodeRemoteFindEvent)
      (some (.found { cb := cb, node := net'.ask.1.node, hops := net'.ask.1.hops }))
  | notifyNode h self n ih =>
    have hsent := ih.request ((Request.notify self.self.id self.self.port).message n) none
      (some .nodeNotifyRepEvent) (some .self)
    simp only [Remote.notifyNode, NodeNet.notifyNode]
    generalize nodeConnectAndSendMessage _ _ _ _ _ = sent at hsent ⊢
    have hget := hsent.getBuffer sent.1
    split
    · rename_i hbuf
      rw [hbuf] at hget
      exact hget.same rfl
    · rename_i hbuf
      rw [hbuf] at hget
      exact hget.write _ _
  | checkNode h self n cb ih => exact ih.request _ _ _ _
  | successorFoundForRemote h data n hops ih =>
    have hget := ih.getBuffer data.connection
    simp only [Remote.successorFoundForRemote, NodeNet.successorFoundForRemote]
    split
    · rename_i hbuf
      rw [hbuf] at hget
      exact hget.same rfl
    · rename_i hbuf
      rw [hbuf] at hget
      exact hget.write _ _
  | useFreed h ih => exact ih.same rfl

section

variable {p : NodeProcess} {i : Fin maxOpenConnections} {s : ℕ}

/-! ### What a handler leaves -/

theorem SelfOrClosed.of_connections (h : SelfOrClosed p i) {q : NodeProcess}
    (hq : q.net.connections = p.net.connections) :
  SelfOrClosed q i
  := by
  rw [SelfOrClosed, hq]
  exact h

theorem SelfOrClosed.modifyBev (h : SelfOrClosed p i) (j : Fin maxOpenConnections)
    (f : Bufferevent → Bufferevent) :
  SelfOrClosed { p with net := p.net.modifyBev j f } i
  := by
  by_cases hj : i = j
  · subst hj
    simpa [SelfOrClosed, NetServer.modifyBev, NetServer.modify] using h
  · simpa [SelfOrClosed, NetServer.modifyBev, NetServer.modify, Function.update_of_ne hj] using h

theorem SelfOrClosed.setInput (h : SelfOrClosed p i) (l : List UInt8) :
  SelfOrClosed (p.setInput i l) i
  := h.modifyBev i _

theorem selfOrClosed_close (p : NodeProcess) (i : Fin maxOpenConnections) :
  SelfOrClosed (p.close i.val) i
  := by
  left
  simp [netConnectionClose, NetServer.modify]

/-- The slot `i` holds a connection whose argument is the node. -/
structure ArgSelf (p : NodeProcess) (i : Fin maxOpenConnections) : Prop where
  bev : (p.net.connections i).bev ≠ none
  arg : (p.net.connections i).upperCbArg = some .self

namespace ArgSelf

theorem selfOrClosed (h : ArgSelf p i) :
  SelfOrClosed p i
  := Or.inr h.arg

theorem of_staysOpen (h : ArgSelf p i) {q : NodeProcess} (hopen : p.net.StaysOpen q.net) :
  ArgSelf q i
  := by
  obtain ⟨hbev, harg⟩ := hopen i h.bev
  exact ⟨hbev, harg.trans h.arg⟩

theorem of_connections (h : ArgSelf p i) {q : NodeProcess}
    (hq : q.net.connections = p.net.connections) :
  ArgSelf q i
  := by
  constructor
  · rw [hq]
    exact h.bev
  · rw [hq]
    exact h.arg

theorem setInput (h : ArgSelf p i) (l : List UInt8) :
  ArgSelf (p.setInput i l) i
  := by
  constructor
  · simpa [Process.setInput_connections_self] using h.bev
  · simpa [Process.setInput_connections_self] using h.arg

theorem write (h : ArgSelf p i) (bytes : List UInt8) :
  ArgSelf { p with net := p.net.write i bytes } i
  := by
  have hrefl : p.net.StaysOpen p.net := fun j hj => ⟨hj, rfl⟩
  exact h.of_staysOpen (hrefl.write i bytes)

end ArgSelf

theorem handleSuccRequest_selfOrClosed (h : ArgSelf p i) :
  SelfOrClosed (handleSuccRequest p i.val (some .self)) i
  := by
  obtain ⟨b, hb⟩ := Option.ne_none_iff_exists'.mp h.bev
  rw [handleSuccRequest]
  rw [withBuffer_of_bev hb]
  dsimp only
  generalize hq : (p.ask.2.setInput i (u32.fill p.ask.1.node.id b.input).2).emit _ = q
  have hself : ArgSelf q i := by
    rw [← hq]
    exact ((h.of_connections (q := p.ask.2) rfl).setInput _).of_connections rfl
  let cb : FoundCb :=
    .successorFoundForRemote { connection := i.val, asker := q.net.serialAt i.val }
  have hacts : Acts (fun _ => True) true q
      (nodeFindSuccessor q (u32.fill p.ask.1.node.id b.input).1 cb).2 :=
    nodeFindSuccessor_acts (fun _ _ => trivial) (Acts.refl q) _ trivial
  exact (hself.of_staysOpen hacts.calls.staysOpen).selfOrClosed

theorem handlePredRequest_selfOrClosed (h : ArgSelf p i) :
  SelfOrClosed (handlePredRequest p i.val (some .self)) i
  := by
  obtain ⟨b, hb⟩ := Option.ne_none_iff_exists'.mp h.bev
  rw [handlePredRequest]
  rw [withBuffer_of_bev hb]
  exact (h.write _).selfOrClosed

theorem handleAliveRequest_selfOrClosed (h : ArgSelf p i) :
  SelfOrClosed (handleAliveRequest p i.val (some .self)) i
  := by
  obtain ⟨b, hb⟩ := Option.ne_none_iff_exists'.mp h.bev
  rw [handleAliveRequest]
  rw [withBuffer_of_bev hb]
  have hask : ArgSelf p.ask.2 i := h.of_connections rfl
  exact (hask.write _).selfOrClosed

theorem handleNotifRequest_selfOrClosed (h : ArgSelf p i) :
  SelfOrClosed (handleNotifRequest p i.val (some .self)) i
  := by
  obtain ⟨b, hb⟩ := Option.ne_none_iff_exists'.mp h.bev
  rw [handleNotifRequest]
  rw [withBuffer_of_bev hb]
  dsimp only
  split
  · exact selfOrClosed_close _ i
  · exact selfOrClosed_close _ i

/-- What is freed is not the argument of a connection that has the node for argument. -/
theorem ArgSelf.free_connections (h : ArgSelf p i) (type : UInt8) (len : UInt32) :
  (p.free i.val (.msg type len)).net.connections = p.net.connections
  := by
  have hdangle : NodeNet.dangle (.msg type len) (p.net.connections i) = p.net.connections i := by
    rw [NodeNet.dangle, h.arg, if_neg]
    intro harg
    cases harg
  simp [netConnectionSet, NetServer.modify, hdangle]

theorem handleNodeMessage_argSelf (h : ArgSelf p i) (type : UInt8) (len : UInt32) :
  ArgSelf (handleNodeMessage p i.val (some (.msg type len))) i
  := by
  have hemit : ∀ e, ArgSelf (p.emit e) i := fun e => h.of_connections rfl
  rw [handleNodeMessage]
  exact (hemit _).of_connections ((hemit _).free_connections type len)

theorem handleBody_selfOrClosed (h : ArgSelf p i) (type : UInt8) (len : UInt32) :
  SelfOrClosed (handleBody p i.val type len) i
  := by
  rw [handleBody]
  split_ifs
  · exact handleSuccRequest_selfOrClosed h
  · exact handlePredRequest_selfOrClosed h
  · exact handleAliveRequest_selfOrClosed h
  · exact handleNotifRequest_selfOrClosed h
  · exact (handleNodeMessage_argSelf h type len).selfOrClosed
  · exact h.selfOrClosed

/-- A body is waited for with the node as the argument when it is not the one of a message for
the application. -/
theorem deferBody_selfOrClosed (h : ArgSelf p i) {type : UInt8} (htype : type ≠ msgTNodeMsg)
    (len : UInt32) :
  SelfOrClosed (deferBody p i.val type len) i
  := by
  have hset : ∀ cb, SelfOrClosed
      { p with net := (netConnectionSetReadCb p.net i.val (some cb)).2 } i := by
    intro cb
    right
    simpa [netConnectionSetReadCb, netConnectionSet, NetServer.modify] using h.arg
  rw [deferBody]
  dsimp only
  split_ifs
  · apply hset
  · apply hset
  · apply hset
  · apply hset
  · apply h.selfOrClosed

/-- A message that is not one for the application, or that came with its body, leaves the node
as the argument. -/
theorem incomingReadCb_selfOrClosed (h : ArgSelf p i) {b : Bufferevent}
    (hb : (p.net.connections i).bev = some b) {type : UInt8} {len : UInt32} {rest : List UInt8}
    (hparse : nodeParseMessageHeader p.ask.1.byte b.input = ((type, len), rest))
    (hnot : type = msgTNodeMsg → len.toNat ≤ rest.length) :
  SelfOrClosed (incomingReadCb p i.val (some .self)) i
  := by
  rw [incomingReadCb]
  simp only [withBuffer_of_bev hb, hparse]
  have hask : ArgSelf p.ask.2 i := h.of_connections rfl
  have hheader := hask.setInput rest
  split
  · rename_i hlen
    apply (deferBody_selfOrClosed hheader _ len).modifyBev
    intro htype
    exact absurd hlen (not_lt.mpr (hnot htype))
  · apply handleBody_selfOrClosed hheader

/-- Whatever other callback reads, a connection whose argument is the node has been closed, or
its argument is the node afterwards. -/
theorem runDataCb_selfOrClosed (h : ArgSelf p i) {cb : DataCb} (hcb : cb ≠ .incomingReadCb) :
  SelfOrClosed (runDataCb p (some (cb, i.val, some .self))) i
  := by
  have hcrash : SelfOrClosed p.crash i := h.selfOrClosed.of_connections rfl
  cases cb with
  | nodeFoundRemoteCb => exact hcrash
  | nodeCheckNodeReply => exact hcrash
  | incomingReadCb => exact absurd rfl hcb
  | handleSuccRequest =>
    rw [runDataCb]
    exact handleSuccRequest_selfOrClosed h
  | handlePredRequest =>
    rw [runDataCb]
    exact handlePredRequest_selfOrClosed h
  | handleAliveRequest =>
    rw [runDataCb]
    exact handleAliveRequest_selfOrClosed h
  | handleNotifRequest =>
    rw [runDataCb]
    exact handleNotifRequest_selfOrClosed h
  | handleNodeMessage => exact hcrash
  | app cb => exact h.selfOrClosed

/-! ### What an event leaves -/

/-- An event callback closes the connection, or leaves its argument. -/
theorem runEventCb_closes (p : NodeProcess) (i : Fin maxOpenConnections) (what : UInt16) :
  let q := runEventCb p what (netConnectionEventCb p.net i.val)
  (q.net.connections i).bev = none ∨ q.net.crashed = true ∨ q = p
  := by
  have hclosed : ∀ q : NodeProcess, ((q.close i.val).net.connections i).bev = none := by
    intro q
    simp [netConnectionClose, NetServer.modify]
  dsimp only
  rw [netConnectionEventCb_coe]
  cases hcb : (p.net.connections i).evtCb with
  | none => exact Or.inr (Or.inr rfl)
  | some cb =>
    rw [Option.map_some]
    cases cb with
    | nodeRemoteFindEvent => exact Or.inr (Or.inr rfl)
    | nodeNotifyRepEvent =>
      rw [runEventCb]
      unfold nodeNotifyRepEvent
      split
      · split_ifs
        · exact Or.inl (hclosed p)
        · exact Or.inr (Or.inr rfl)
      · exact Or.inr (Or.inl rfl)
    | nodeCheckNodeEvent =>
      rw [runEventCb]
      unfold nodeCheckNodeEvent
      split
      · split_ifs
        · left
          simp [netConnectionClose, netConnectionSet, NetServer.modify]
        · left
          simp [netConnectionClose, netConnectionSet, NetServer.modify]
        · exact Or.inr (Or.inr rfl)
      · exact Or.inr (Or.inl rfl)
    | incomingEventCb =>
      rw [runEventCb]
      unfold incomingEventCb
      split
      · split_ifs
        · exact Or.inl (hclosed p)
        · exact Or.inr (Or.inr rfl)
      · exact Or.inr (Or.inl rfl)
    | incomingEventMsgCb =>
      rw [runEventCb]
      unfold incomingEventMsgCb
      split
      · split_ifs
        · exact Or.inl (hclosed p)
        · exact Or.inr (Or.inr rfl)
      · exact Or.inr (Or.inl rfl)
    | app cb => exact Or.inr (Or.inr rfl)

theorem drainBody_selfOrClosed (h : SelfOrClosed p i) (e : Event) :
  SelfOrClosed (drainBody p e) i
  := by
  unfold drainBody
  split
  · split
    · apply h.modifyBev
    · exact h
  · exact h

theorem foldl_drainBody_selfOrClosed (h : SelfOrClosed p i) (es : List Event) :
  SelfOrClosed (es.foldl drainBody p) i
  := by
  induction es generalizing p with
  | nil => exact h
  | cons e es ih => exact ih (drainBody_selfOrClosed h e)

end
