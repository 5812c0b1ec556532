import LibDht.Loopback.Sending
import LibDht.Net.Hops

/-!
# What arrives at a process

A request that arrives whole on a connection that was accepted is handled, and a reply that
arrives whole on one that was made is read; a connection whose other end is closed is closed,
if its event callback does so. What this does to the node is what the operation does that
the message is for, and to the table one of the changes of `Shows`.
-/

open Function

section

variable {p : NodeProcess} {v : ℕ → Option Conn} {s : ℕ} {j k : Fin maxOpenConnections}
  {b : Bufferevent}

/-- What arrives at once is a stream of one segment. -/
theorem Connected.occur_data (h : Connected p k s b) (bytes : List UInt8) :
  p.occur (.data k bytes) = p.deliver k s [bytes]
  := by
  rw [Process.occur_of_running h.running, Process.deliver, List.foldl_cons, List.foldl_nil,
    if_pos h.serialAt]
  rfl

namespace Shows

/-- A connection that was accepted, and that nothing has been read from that is still there. -/
theorem accepted {out : List UInt8} (h : Shows p.net v) (hrun : p.net.crashed = false)
    (hs : v s = some (.taken j out)) :
  Accepted p j s ∧ ∃ b, (p.net.connections j).bev = some b ∧ b.serial = s ∧ b.input = []
    ∧ b.output = out ∧ b.peer = 0x7F000001 ∧ b.enabled = true ∧ b.low = headerBytes
  := by
  obtain ⟨k, b, hb, hserial, rfl, hserves⟩ := h.fits hs
  obtain ⟨b', hb', henabled, hinput, hlow, houtput, hpeer⟩ := hserves.bev
  rw [hb] at hb'
  obtain rfl := Option.some.inj hb'
  refine ⟨⟨⟨b, ⟨hrun, hb, hserial, henabled⟩, hinput, hlow, ?_⟩, hserves.readCb, hserves.arg⟩,
    b, hb, hserial, hinput, houtput, hpeer, henabled, hlow⟩
  rw [hpeer]
  decide

/-- The slot `k` holds a connection that was made for `u`. -/
theorem dials {u : Purpose} {sin : UInt32 × UInt16} (h : Shows p.net v)
    (hb : Connected p k s b) (hs : v s = some (.made u sin)) :
  Dials (p.net.connections k) u sin ∧ b.input = [] ∧ b.low = 0 ∧ b.output = u.request.wire
  := by
  obtain ⟨x, hx, hfits⟩ := h.of_enabled hb.bev hb.enabled
  rw [hb.serial, hs] at hx
  obtain rfl := Option.some.inj hx
  have hdials : Dials (p.net.connections k) u sin := hfits
  obtain ⟨b', hb', -, hinput, hlow, houtput⟩ := hdials.bev
  rw [hb.bev] at hb'
  obtain rfl := Option.some.inj hb'
  exact ⟨hdials, hinput, hlow, houtput⟩

/-- The slot `j` holds a connection that was accepted. -/
theorem serves {j' : Fin maxOpenConnections} {out : List UInt8} (h : Shows p.net v)
    (hb : Connected p j s b) (hs : v s = some (.taken j' out)) :
  j' = j ∧ Serves (p.net.connections j) out ∧ b.output = out
  := by
  obtain ⟨x, hx, hfits⟩ := h.of_enabled hb.bev hb.enabled
  rw [hb.serial, hs] at hx
  obtain rfl := Option.some.inj hx
  obtain ⟨hj, hserves⟩ : j' = j ∧ Serves (p.net.connections j) out := hfits
  obtain ⟨b', hb', -, -, -, houtput, -⟩ := hserves.bev
  rw [hb.bev] at hb'
  obtain rfl := Option.some.inj hb'
  exact ⟨hj, hserves, houtput⟩

/-- A connection whose socket is connected is one of those that the table holds. -/
theorem of_connected (h : Shows p.net v) (hb : Connected p k s b) :
  ∃ x, v s = some x
  := by
  obtain ⟨x, hx, -⟩ := h.of_enabled hb.bev hb.enabled
  rw [hb.serial] at hx
  exact ⟨x, hx⟩

end Shows

/-! ### Requests -/

/-- A request has arrived whole: its head is read, and its handler is called. -/
theorem deliver_head (h : Accepted p j s) (hb : (p.net.connections j).bev = some b)
    (r : Request) :
  ∃ q : NodeProcess, q.node = p.node
    ∧ q.net = { p.net with
      connections := update p.net.connections j
        { p.net.connections j with bev := some { b with input := r.body } }
      calls := p.net.calls + 1 }
    ∧ p.deliver j s [r.wire] = handleBody q j.val r.type 0
  := by
  generalize hin : p.setInput j r.wire = p'
  have hbev : (p'.net.connections j).bev = some { b with input := r.wire } := by
    rw [← hin]
    exact setInput_bev hb _
  have hready : readReady p' j = handleBody (p'.ask.2.setInput j r.body) j.val r.type 0 := by
    rw [← hin, readReady_setInput h.readCb, h.arg, runDataCb, hin,
      incomingReadCb_header hbev r.wire_eq]
  refine ⟨p'.ask.2.setInput j r.body, ?_, ?_, ?_⟩
  · rw [← hin]
    rfl
  · rw [← hin]
    simp [Process.setInput, NetServer.modifyBev, NetServer.modify, NetServer.ask, hb]
  · rw [deliver_wire h r, hin, hready]

/-- A request without a body leaves no trace in the buffer. -/
theorem deliver_bodyless (h : Shows p.net v) (hrun : p.net.crashed = false)
    {out : List UInt8} (hs : v s = some (.taken j out)) (r : Request) (hr : r.body = []) :
  ∃ q : NodeProcess, q.node = p.node ∧ q.net.connections = p.net.connections
    ∧ q.net.nextSerial = p.net.nextSerial ∧ Shows q.net v
    ∧ p.deliver j s [r.wire] = handleBody q j.val r.type 0
  := by
  obtain ⟨haccepted, b, hb, -, hinput, -⟩ := h.accepted hrun hs
  obtain ⟨q, hnode, hnet, hdeliver⟩ := deliver_head haccepted hb r
  have hsame : ({ p.net.connections j with bev := some { b with input := r.body } } : Slot)
      = p.net.connections j := by
    rw [hr, ← hinput, ← hb]
  have hconn : q.net.connections = p.net.connections := by
    rw [hnet, hsame, update_eq_self]
  have hnext : q.net.nextSerial = p.net.nextSerial := by rw [hnet]
  have hadvances : Advances (fun _ => True) p.net q.net := Advances.same hconn hnext
  refine ⟨q, hnode, hconn, hnext, ?_, hdeliver⟩
  exact h.of_connections hconn (hadvances.numbered h.numbered)

/-- A lookup that comes in: the node is asked for the successor. -/
theorem occur_findSuccessor (h : Shows p.net v) (hb : Connected p j s b)
    (hs : v s = some (.taken j [])) (id : HashType) :
  ∃ q : NodeProcess, q.node = p.node ∧ q.net.nextSerial = p.net.nextSerial ∧ Shows q.net v
    ∧ p.occur (.data j (Request.findSuccessor id).wire)
      = (nodeFindSuccessor q id (answerTo j s)).2
  := by
  obtain ⟨haccepted, b', hb', -, hinput, -⟩ := h.accepted hb.running hs
  rw [hb.bev] at hb'
  obtain rfl := Option.some.inj hb'
  obtain ⟨q, hnode, hnet, hnum, hdeliver⟩ := deliver_findSuccessor haccepted hb.bev id
  have hsame : ({ p.net.connections j with bev := some { b with input := [] } } : Slot)
      = p.net.connections j := by
    rw [← hinput, ← hb.bev]
  refine ⟨q, hnode, ?_, ?_, ?_⟩
  · rw [hnet]
  · apply h.of_connections
    · rw [hnet, hsame, update_eq_self]
    · apply hnum h.numbered
  · rw [hb.occur_data, hdeliver]

/-- The predecessor is reported. -/
theorem occur_predecessor (h : Shows p.net v) (hb : Connected p j s b)
    (hs : v s = some (.taken j [])) :
  let q := p.occur (.data j Request.predecessor.wire)
  q.node = p.node ∧ q.net.nextSerial = p.net.nextSerial
    ∧ Shows q.net (update v s (some (.taken j (predecessorReply p.node))))
  := by
  obtain ⟨q, hnode, hconn, hnext, hshows, hdeliver⟩ :=
    deliver_bodyless h hb.running hs .predecessor rfl
  have hbev : (q.net.connections j).bev = some b := by rw [hconn, hb.bev]
  have hwrite := hshows.write hs (predecessorReply p.node)
  dsimp only
  rw [hb.occur_data, hdeliver, handleBody_type]
  dsimp only
  rw [handlePredRequest, withBuffer_of_bev hbev]
  dsimp only
  rw [Process.emit_node, hnode]
  exact ⟨rfl, hnext, hwrite⟩

/-- The node reports to be alive. -/
theorem occur_alive (h : Shows p.net v) (hb : Connected p j s b)
    (hs : v s = some (.taken j [])) :
  ∃ tail, let q := p.occur (.data j Request.alive.wire)
    q.node = p.node ∧ q.net.nextSerial = p.net.nextSerial
      ∧ Shows q.net (update v s (some (.taken j (aliveReply tail))))
  := by
  obtain ⟨q, hnode, hconn, hnext, hshows, hdeliver⟩ := deliver_bodyless h hb.running hs .alive rfl
  have hbev : (q.net.connections j).bev = some b := by rw [hconn, hb.bev]
  have hask : Shows q.ask.2.net v := hshows.ask
  use q.ask.1.tail
  have hwrite := hask.write hs (aliveReply q.ask.1.tail)
  dsimp only
  rw [hb.occur_data, hdeliver, handleBody_type]
  dsimp only
  rw [handleAliveRequest, withBuffer_of_bev hbev]
  exact ⟨hnode, hnext, hwrite⟩

/-- The slot that a connection leaves when it is closed. -/
theorem connections_close (net : NodeNet) (k : Fin maxOpenConnections) :
  (netConnectionClose net k.val).connections
    = update net.connections k { net.connections k with bev := none, netCbArg := none, sin := (0, 0) }
  := by
  rw [netConnectionClose, netSlot_coe]
  rfl

/-- A notification comes in: the node is told of the one that sent it, and the connection is
closed. -/
theorem occur_notify (h : Shows p.net v) (hb : Connected p j s b)
    (hs : v s = some (.taken j [])) (id : HashType) (port : UInt16) :
  let q := p.occur (.data j (Request.notify id port).wire)
  q.node = nodeNotified p.node { id := id, IP := 0x7F000001, port := port }
    ∧ q.net.nextSerial = p.net.nextSerial ∧ Shows q.net (update v s none)
  := by
  obtain ⟨haccepted, b', hb', -, hinput, -, hpeer, -⟩ := h.accepted hb.running hs
  rw [hb.bev] at hb'
  obtain rfl := Option.some.inj hb'
  obtain ⟨q, hnode, hnet, hdeliver⟩ := deliver_head haccepted hb.bev (.notify id port)
  have hbev : (q.net.connections j).bev
      = some { b with input := (Request.notify id port).body } := by
    rw [hnet]
    simp
  have hne : ¬ (b.peer == 0) = true := by
    rw [hpeer]
    decide
  have hid : ∀ old, u32.fill old (Request.notify id port).body = (id, u16.encode port) := by
    intro old
    rw [Request.body, u32.fill_encode_append]
  have hport : ∀ old, u16.fill old (u16.encode port) = (port, []) := by
    intro old
    apply u16.fill_encode
  have hserial : NodeNet.serialIn p.net j = some s := by
    rw [NodeNet.serialIn, hb.bev, Option.map_some, hb.serial]
  have hoccur : p.occur (.data j (Request.notify id port).wire)
      = { (((q.ask.2.setInput j []).emit
            (.handled j.val (.notify id port) (Request.notify id port).body.length))) with
          node := nodeNotified q.node { id := id, IP := 0x7F000001, port := port }
          net := netConnectionClose (q.ask.2.setInput j []).net j.val } := by
    rw [hb.occur_data, hdeliver, handleBody_type]
    dsimp only
    rw [handleNotifRequest, withBuffer_of_bev hbev]
    dsimp only
    rw [if_neg hne, hid]
    dsimp only
    rw [hport, hpeer]
    rfl
  have hnum := (occur_happens p (.data j (Request.notify id port).wire)).net.numbered h.numbered
  have hconn : (q.ask.2.setInput j []).net.connections
      = update p.net.connections j ((q.ask.2.setInput j []).net.connections j) := by
    change update q.net.connections j _ = update p.net.connections j (update q.net.connections j _ j)
    rw [update_self, hnet, update_idem]
  dsimp only
  rw [hoccur]
  refine ⟨?_, ?_, ?_⟩
  · rw [hnode]
  · rw [netConnectionClose, netSlot_coe]
    change q.net.nextSerial = _
    rw [hnet]
  · rw [hoccur] at hnum
    have hclosed := connections_close (q.ask.2.setInput j []).net j
    rw [hconn, update_idem] at hclosed
    exact h.closed hclosed hnum hserial rfl rfl

/-! ### Replies -/

/-- A connection whose slot is all that has changed is closed, and its argument is freed. -/
theorem Shows.close_free {net : NodeNet} (h : Shows net v) (hserial : net.serialIn k = some s)
    {q : NodeProcess} {c : Slot} (hconn : q.net.connections = update net.connections k c)
    (hnext : q.net.nextSerial = net.nextSerial) (hnum : q.net.Numbered) (arg : CbArg) :
  let r := (q.close k.val).free k.val arg
  r.net.nextSerial = net.nextSerial ∧ r.net.crashed = q.net.crashed
    ∧ Shows r.net (update v s none)
  := by
  have hnet : ((q.close k.val).free k.val arg).net
      = (netConnectionClose q.net k.val).modify k (NodeNet.dangle arg) := by
    rw [Process.free_net, Process.close_net, netConnectionSet, netSlot_coe]
  have hclosed := connections_close q.net k
  have hadvances := (Advances.close (R := fun _ => True) q.net k.val).trans
    (Advances.dangle (netConnectionClose q.net k.val) k.val arg)
  have hnum' := hadvances.numbered hnum
  rw [netConnectionSet, netSlot_coe] at hnum'
  rw [hconn, update_idem, update_self] at hclosed
  dsimp only
  rw [hnet]
  refine ⟨?_, ?_, ?_⟩
  · rw [netConnectionClose, netSlot_coe]
    apply hnext
  · rw [netConnectionClose, netSlot_coe]
    rfl
  · have hbev : (NodeNet.dangle arg { c with bev := none, netCbArg := none, sin := (0, 0) }).bev
        = none := by
      rw [NodeNet.dangle_bev]
    have hsin : (NodeNet.dangle arg { c with bev := none, netCbArg := none, sin := (0, 0) }).sin
        = (0, 0) := by
      rw [NodeNet.dangle]
      split <;> rfl
    apply h.closed _ hnum' hserial hbev hsin
    change update (netConnectionClose q.net k.val).connections k (NodeNet.dangle arg
      ((netConnectionClose q.net k.val).connections k)) = _
    rw [hclosed, update_idem, update_self]

/-- Nothing but the buffer changes when bytes come in. -/
theorem setInput_connections (hb : (p.net.connections k).bev = some b) (l : List UInt8) :
  (p.setInput k l).net.connections
    = update p.net.connections k { p.net.connections k with bev := some { b with input := l } }
  := by
  change update p.net.connections k { p.net.connections k with
    bev := (p.net.connections k).bev.map fun b => { b with input := l } } = _
  rw [hb, Option.map_some]

/-- A reply comes in on a connection that was made for it: it is read, the connection is
closed, and the node is handed over. -/
theorem occur_reply (h : Shows p.net v) (hb : Connected p k s b) {u : Purpose}
    {sin : UInt32 × UInt16} (hs : v s = some (.made u sin)) {data : NodeFoundCbData}
    (hdata : u.found = some data) {out : List UInt8} (hout : out ≠ []) {n : NodeInfo}
    {hops : Int16} (hread : ∀ byte, readFound (data.node, data.hops) byte out = (n, hops)) :
  ∃ q : NodeProcess, q.node = p.node ∧ q.net.nextSerial = p.net.nextSerial
    ∧ q.net.crashed = false ∧ Shows q.net (update v s none)
    ∧ p.occur (.data k out) = nodeFound q { cb := data.cb, node := n, hops := hops }
  := by
  obtain ⟨hdials, hinput, hlow, -⟩ := h.dials hb hs
  have hcb : (p.net.connections k).readCb = some .nodeFoundRemoteCb := by
    apply hdials.readCb
    cases u <;> first | rfl | cases hdata
  have harg : (p.net.connections k).upperCbArg = some (.found data) := by
    rw [hdials.arg]
    cases u <;> first | exact congrArg (some ∘ CbArg.found) (Option.some.inj hdata) | cases hdata
  have hcollect : collect 1 [] [out] = some (out, []) := by
    rw [collect, List.nil_append, if_pos]
    exact List.length_pos_iff.mpr hout
  generalize hin : p.setInput k out = p'
  have hbev : (p'.net.connections k).bev = some { b with input := out } := by
    rw [← hin]
    exact setInput_bev hb.bev _
  have hdeliver : p.occur (.data k out) = nodeFoundRemoteCb p' k.val (some (.found data)) := by
    rw [hb.occur_data, deliver_first hb hinput hlow, hcollect]
    dsimp only
    rw [deliver_nil (by simp), readReady_setInput hcb, harg, hin, runDataCb]
  have hserial : NodeNet.serialIn p.net k = some s := by
    rw [NodeNet.serialIn, hb.bev, Option.map_some, hb.serial]
  have hconn : p'.net.connections = update p.net.connections k
      { p.net.connections k with bev := some { b with input := out } } := by
    rw [← hin]
    exact setInput_connections hb.bev _
  have hnum : p'.net.Numbered := by
    rw [← hin]
    exact ((Moves.refl (R := fun _ => True) p).setInput k out).net.numbered h.numbered
  have hnext : p'.net.nextSerial = p.net.nextSerial := by rw [← hin]; rfl
  have hrun : p'.net.crashed = false := by rw [← hin]; exact hb.running
  obtain ⟨hnext', hcrashed, hshows⟩ := h.close_free hserial
    (q := p'.ask.2.emit (.replyRead b.serial)) hconn hnext
    ((Advances.ask (R := fun _ => True) p'.net).numbered hnum) (.found data)
  refine ⟨((p'.ask.2.emit (.replyRead b.serial)).close k.val).free k.val (.found data), ?_, hnext',
    ?_, hshows, ?_⟩
  · rw [Process.free_node, Process.close_node, Process.emit_node, Process.ask_node, ← hin]
    rfl
  · rw [hcrashed]
    apply hrun
  · rw [hdeliver, nodeFoundRemoteCb_of_bev hbev, hread]

/-- The reply to a probe comes in: the node is alive, and nothing else happens. -/
theorem occur_probed (h : Shows p.net v) (hb : Connected p k s b) {cb : CheckCb}
    {sin : UInt32 × UInt16} (hs : v s = some (.made (.probe cb) sin))
    (tail : UInt8 × UInt8 × UInt8) :
  let q := p.occur (.data k (aliveReply tail))
  q.node = p.node ∧ q.net.nextSerial = p.net.nextSerial ∧ q.net.crashed = false
    ∧ Shows q.net (update v s none)
  := by
  obtain ⟨hdials, hinput, hlow, -⟩ := h.dials hb hs
  have hcb : (p.net.connections k).readCb = some .nodeCheckNodeReply := hdials.readCb _ rfl
  have hcollect : collect 1 [] [aliveReply tail] = some (aliveReply tail, []) := by
    rw [collect, List.nil_append, if_pos]
    exact List.length_pos_iff.mpr (List.cons_ne_nil _ _)
  have hline : readln (aliveReply tail) = some [replyYes] := by
    rw [readln, if_pos (by simp [aliveReply])]
    rfl
  generalize hin : p.setInput k (aliveReply tail) = p'
  have hbev : (p'.net.connections k).bev = some { b with input := aliveReply tail } := by
    rw [← hin]
    exact setInput_bev hb.bev _
  have hoccur : p.occur (.data k (aliveReply tail))
      = ((p'.emit (.checked cb true)).close k.val).free k.val (.check cb) := by
    have hdeliver := deliver_first hb hinput hlow [aliveReply tail]
    rw [hcollect] at hdeliver
    dsimp only at hdeliver
    rw [hb.occur_data, hdeliver, deliver_nil (by simp), readReady_setInput hcb, hdials.arg, hin,
      runDataCb]
    dsimp only [Purpose.cbArg]
    rw [nodeCheckNodeReply, withBuffer_of_bev hbev]
    dsimp only
    rw [hline]
    cases cb <;> rfl
  have hserial : NodeNet.serialIn p.net k = some s := by
    rw [NodeNet.serialIn, hb.bev, Option.map_some, hb.serial]
  have hconn : p'.net.connections = update p.net.connections k
      { p.net.connections k with bev := some { b with input := aliveReply tail } } := by
    rw [← hin]
    exact setInput_connections hb.bev _
  have hnum : p'.net.Numbered := by
    rw [← hin]
    exact ((Moves.refl (R := fun _ => True) p).setInput k _).net.numbered h.numbered
  have hnext : p'.net.nextSerial = p.net.nextSerial := by rw [← hin]; rfl
  have hrun : p'.net.crashed = false := by rw [← hin]; exact hb.running
  obtain ⟨hnext', hcrashed, hshows⟩ := h.close_free hserial (q := p'.emit (.checked cb true)) hconn
    hnext hnum (.check cb)
  dsimp only
  rw [hoccur]
  refine ⟨?_, hnext', ?_, hshows⟩
  · rw [Process.free_node, Process.close_node, Process.emit_node, ← hin]
    rfl
  · rw [hcrashed]
    apply hrun

/-! ### The end of a connection -/

/-- The client of a connection that was accepted has closed it. -/
theorem occur_clientClosed (h : Shows p.net v) (hb : Connected p j s b)
    {j' : Fin maxOpenConnections} {out : List UInt8} (hs : v s = some (.taken j' out)) :
  let q := p.occur (.event j (bevEventReading ||| bevEventEof))
  q.node = p.node ∧ q.net.nextSerial = p.net.nextSerial ∧ q.net.crashed = false
    ∧ Shows q.net (update v s none)
  := by
  obtain ⟨-, hserves, -⟩ := h.serves hb hs
  have hserial : NodeNet.serialIn p.net j = some s := by
    rw [NodeNet.serialIn, hb.bev, Option.map_some, hb.serial]
  have hoccur : p.occur (.event j (bevEventReading ||| bevEventEof)) = p.close j.val := by
    rw [Process.occur_of_running hb.running, Occurrence.handle,
      NodeNet.isEnabled_of_bev hb.bev, hb.enabled, if_pos rfl, netConnectionEventCb_coe,
      hserves.eventCb, hserves.arg]
    dsimp only [Option.map_some, runEventCb, incomingEventCb]
    rw [if_pos (by decide)]
  have hnum := (Advances.close (R := fun _ => True) p.net j.val).numbered h.numbered
  dsimp only
  rw [hoccur]
  refine ⟨Process.close_node p _, ?_, ?_, ?_⟩
  · rw [Process.close_net, netConnectionClose, netSlot_coe]
    rfl
  · rw [Process.close_net, netConnectionClose, netSlot_coe]
    exact hb.running
  · rw [Process.close_net]
    exact h.closed (connections_close p.net j) hnum hserial rfl rfl

/-- The server of a connection that was made has closed it: so does the client, unless it waits
for a node. -/
theorem occur_serverClosed (h : Shows p.net v) (hb : Connected p k s b) {u : Purpose}
    {sin : UInt32 × UInt16} (hs : v s = some (.made u sin)) :
  let q := p.occur (.event k (bevEventReading ||| bevEventEof))
  q.node = p.node ∧ q.net.nextSerial = p.net.nextSerial ∧ q.net.crashed = false
    ∧ (Shows q.net v ∨ u.found = none ∧ Shows q.net (update v s none))
  := by
  obtain ⟨hdials, -⟩ := h.dials hb hs
  have hserial : NodeNet.serialIn p.net k = some s := by
    rw [NodeNet.serialIn, hb.bev, Option.map_some, hb.serial]
  have hrun : p.occur (.event k (bevEventReading ||| bevEventEof))
      = runEventCb p (bevEventReading ||| bevEventEof) (some (u.eventCb, k.val, some u.cbArg)) := by
    rw [Process.occur_of_running hb.running, Occurrence.handle,
      NodeNet.isEnabled_of_bev hb.bev, hb.enabled, if_pos rfl, netConnectionEventCb_coe,
      hdials.eventCb, hdials.arg]
    rfl
  have hsame : update p.net.connections k (p.net.connections k) = p.net.connections :=
    update_eq_self k _
  have hclosed := h.close_free hserial (q := p) hsame.symm rfl h.numbered
  have hnum := (Advances.close (R := fun _ => True) p.net k.val).numbered h.numbered
  dsimp only
  rw [hrun]
  cases u with
  | lookup id data => exact ⟨rfl, rfl, hb.running, Or.inl h⟩
  | predecessor data => exact ⟨rfl, rfl, hb.running, Or.inl h⟩
  | probe cb =>
    obtain ⟨hnext, hcrashed, hshows⟩ := hclosed (.check cb)
    dsimp only [Purpose.eventCb, Purpose.cbArg, runEventCb, nodeCheckNodeEvent]
    rw [if_pos (by decide), if_neg (by decide)]
    refine ⟨?_, hnext, hcrashed.trans hb.running, Or.inr ⟨rfl, hshows⟩⟩
    rw [Process.free_node, Process.close_node]
  | notify id port =>
    dsimp only [Purpose.eventCb, Purpose.cbArg, runEventCb, nodeNotifyRepEvent]
    rw [if_pos (by decide)]
    refine ⟨Process.close_node p _, ?_, ?_, Or.inr ⟨rfl, ?_⟩⟩
    · rw [Process.close_net, netConnectionClose, netSlot_coe]
      rfl
    · rw [Process.close_net, netConnectionClose, netSlot_coe]
      exact hb.running
    · rw [Process.close_net]
      exact h.closed (connections_close p.net k) hnum hserial rfl rfl

/-! ### The listener -/

/-- A connection comes in: it is given a slot and the next serial, or it is dropped. -/
theorem occur_accept (h : Shows p.net v) (hrun : p.net.crashed = false) :
  let q := p.occur (.accept 0x7F000001)
  q.node = p.node ∧ q.net.crashed = false
    ∧ (p.net.nextSerial ≤ q.net.nextSerial ∧ (∀ j, q.net.serialIn j ≠ some p.net.nextSerial)
        ∧ Shows q.net v
      ∨ q.net.nextSerial = p.net.nextSerial + 1
        ∧ ∃ j, q.net.serialIn j = some p.net.nextSerial
          ∧ Shows q.net (update v p.net.nextSerial (some (.taken j []))))
  := by
  let handler : ℤ → NodeNet → NodeNet := incomingConnection .incomingReadCb .incomingEventCb .self
  have hoccur : p.occur (.accept 0x7F000001)
      = { p with net := listenEvtCb p.net 0x7F000001 handler } :=
    Process.occur_of_running hrun _
  have hnum := (occur_happens p (.accept 0x7F000001)).net.numbered h.numbered
  have hnew : ∀ j, p.net.serialIn j ≠ some p.net.nextSerial := by
    intro j hj
    exact lt_irrefl _ (h.numbered.lt hj)
  dsimp only
  rw [hoccur] at hnum ⊢
  dsimp only at hnum ⊢
  cases hi : netEmptyConnectionSlot p.net with
  | none =>
    have hlisten : listenEvtCb p.net 0x7F000001 handler = p.net := by rw [listenEvtCb, hi]
    rw [hlisten]
    exact ⟨rfl, hrun, Or.inl ⟨le_refl _, hnew, h⟩⟩
  | some i =>
    have hbev := netEmptyConnectionSlot_bev hi
    rw [listenEvtCb_of_slot hi] at hnum ⊢
    split_ifs at hnum ⊢ with hnewbev hmalloc
    · refine ⟨rfl, hrun, Or.inr ⟨rfl, i, ?_, ?_⟩⟩
      · dsimp only [NodeNet.serialIn]
        rw [update_self]
        rfl
      · apply h.opened (b := { p.net.freshBev 0x7F000001 with low := headerBytes, enabled := true })
          rfl hnum hbev rfl
        use rfl
        exact ⟨⟨_, rfl, rfl, rfl, rfl, rfl, rfl⟩, h.empty i hbev, rfl, rfl, rfl⟩
    · refine ⟨rfl, hrun, Or.inl ⟨Nat.le_succ _, ?_, ?_⟩⟩
      · intro j hj
        dsimp only [NodeNet.serialIn] at hj
        by_cases hji : j = i
        · subst hji
          rw [update_self] at hj
          cases hj
        · rw [update_of_ne hji] at hj
          exact hnew j hj
      · apply h.unused rfl hnum hbev
        · intro _
          rfl
        · intro b hb
          cases hb
    · exact ⟨rfl, hrun, Or.inl ⟨le_refl _, hnew, h.of_connections rfl hnum⟩⟩

end
