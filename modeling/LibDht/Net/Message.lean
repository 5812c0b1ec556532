import LibDht.Net.Netio
import LibDht.Wire.Header

/-!
# Sending messages

A message goes out on a connection that is made for it: `node_connect_and_send_message`
takes a slot, sets those callbacks that it is given in it, and formats the message into its
output buffer. A callback that it is given as a null pointer is not set: the slot keeps
what it has.
-/

/-- A message: `struct node_message`, less the node it is from. -/
structure NodeMessage where
  dest : NodeInfo
  type : UInt8
  len : UInt32
  content : Option (List UInt8)
  deriving DecidableEq, Repr

/-- What a message is formatted as. Without content the length is printed as `0`, whatever
`len` is; the content ends at its first zero byte. -/
def NodeMessage.text (msg : NodeMessage) : List UInt8 :=
  match msg.content with
  | some content => messageHeader msg.type msg.len ++ content.takeWhile (· != 0)
  | none => messageHeader msg.type 0

/-- The greatest `int`, which is the greatest number of bytes that can be printed at once. -/
abbrev intMax : ℕ := 2 ^ 31 - 1

section

variable {D E A : Type}

/-- Send a message on a connection, and open it. -/
def nodeSendMessage (srv : NetServer D E A) (msg : NodeMessage) (connection : ℤ) :
    ℤ × NetServer D E A :=
  match netConnectionGetBuffer srv connection with
  | (none, srv) => (-1, srv)
  | (some (i, _), srv) =>
    let (o, srv) := srv.ask
    if !o.printf then (-1, srv)
    else netConnectionActivate (srv.write i msg.text) connection

/-- Those callbacks that are given are set. -/
def setCallbacks (srv : NetServer D E A) (connection : ℤ) (readCb : Option D) (eventCb : Option E)
    (cbArg : Option A) : NetServer D E A :=
  let srv := if readCb.isSome then (netConnectionSetReadCb srv connection readCb).2 else srv
  let srv := if eventCb.isSome then (netConnectionSetEventCb srv connection eventCb).2 else srv
  if cbArg.isSome then (netConnectionSetCbArg srv connection cbArg).2 else srv

/-- Connect to a node and send it a message. -/
def nodeConnectAndSendMessage (srv : NetServer D E A) (msg : NodeMessage) (readCb : Option D)
    (eventCb : Option E) (cbArg : Option A) : ℤ × NetServer D E A :=
  let (connection, srv) := netConnectionCreate srv msg.dest.IP msg.dest.port
  if connection < 0 then (connection, srv)
  else
    let srv := setCallbacks srv connection readCb eventCb cbArg
    let (rc, srv) := nodeSendMessage srv msg connection
    if rc = 0 then (connection, srv) else (rc, srv)

/-- Set up an accepted connection, with the callbacks of a node. Nothing is read before a
whole header has arrived. -/
def incomingConnection (readCb : D) (eventCb : E) (cbArg : A) (connection : ℤ)
    (srv : NetServer D E A) : NetServer D E A :=
  let srv := (netConnectionSetReadCb srv connection (some readCb)).2
  let srv := (netConnectionSetEventCb srv connection (some eventCb)).2
  let srv := (netConnectionSetCbArg srv connection (some cbArg)).2
  match netConnectionGetBuffer srv connection with
  | (none, srv) => srv.crash
  | (some (i, _), srv) => srv.modifyBev i (fun b => { b with low := headerBytes })

/-! ### What becomes of the slot -/

theorem netEmptyConnectionSlot_eq_find (srv : NetServer D E A) :
  netEmptyConnectionSlot srv = Fin.find? fun i => (srv.connections i).bev.isNone
  := by
  unfold netEmptyConnectionSlot
  rfl

/-- The first empty slot depends on nothing but which slots are empty. -/
theorem netEmptyConnectionSlot_congr {D' E' A' : Type} {srv : NetServer D E A}
    {srv' : NetServer D' E' A'}
    (h : ∀ i, (srv.connections i).bev.isNone = (srv'.connections i).bev.isNone) :
  netEmptyConnectionSlot srv = netEmptyConnectionSlot srv'
  := by
  rw [netEmptyConnectionSlot_eq_find, netEmptyConnectionSlot_eq_find]
  exact congrArg Fin.find? (funext h)

theorem netEmptyConnectionSlot_ask (srv : NetServer D E A) :
  netEmptyConnectionSlot srv.ask.2 = netEmptyConnectionSlot srv
  := netEmptyConnectionSlot_congr fun _ => rfl

theorem netEmptyConnectionSlot_bev {srv : NetServer D E A} {i : Fin maxOpenConnections}
    (h : netEmptyConnectionSlot srv = some i) :
  (srv.connections i).bev = none
  := by
  rw [netEmptyConnectionSlot_eq_find] at h
  simpa using (Fin.find?_eq_some_iff.mp h).1

/-- A slot that has been taken for a message to a peer: what was given is set in it, and what
was not given is as it was. -/
def taken (c : NetConnection D E A) (i : Fin maxOpenConnections) (b : Bufferevent)
    (msg : NodeMessage) (readCb : Option D) (eventCb : Option E) (cbArg : Option A) :
    NetConnection D E A where
  bev := some b
  sin := (msg.dest.IP, msg.dest.port)
  readCb := readCb.or c.readCb
  writeCb := c.writeCb
  evtCb := eventCb.or c.evtCb
  upperCbArg := cbArg.or c.upperCbArg
  netCbArg := some i.val

/-- What an attempt to send a message does to a server. Nothing but the first empty slot
changes. When the attempt fails, it is emptied before or after the callbacks are set, or
stays taken with its socket not connected; otherwise it is taken, and the message is in its
output buffer. -/
inductive Attempt (srv : NetServer D E A) (msg : NodeMessage) (readCb : Option D)
    (eventCb : Option E) (cbArg : Option A) : ℤ × NetServer D E A → Prop where
  | none (calls : ℕ) : Attempt srv msg readCb eventCb cbArg (-1, { srv with calls := calls })
  | lost {i : Fin maxOpenConnections} (hi : netEmptyConnectionSlot srv = some i) (calls : ℕ) :
      Attempt srv msg readCb eventCb cbArg (-1, { srv with
        connections := Function.update srv.connections i
          { srv.connections i with bev := Option.none, sin := (0, 0), netCbArg := Option.none }
        nextSerial := srv.nextSerial + 1
        calls := calls })
  | refused {i : Fin maxOpenConnections} (hi : netEmptyConnectionSlot srv = some i) (calls : ℕ) :
      Attempt srv msg readCb eventCb cbArg (-1, { srv with
        connections := Function.update srv.connections i
          { taken (srv.connections i) i (srv.freshBev msg.dest.IP) msg readCb eventCb cbArg with
            bev := Option.none, sin := (0, 0), netCbArg := Option.none }
        nextSerial := srv.nextSerial + 1
        calls := calls })
  | unsent {i : Fin maxOpenConnections} (hi : netEmptyConnectionSlot srv = some i) (calls : ℕ) :
      Attempt srv msg readCb eventCb cbArg (-1, { srv with
        connections := Function.update srv.connections i
          (taken (srv.connections i) i (srv.freshBev msg.dest.IP) msg readCb eventCb cbArg)
        nextSerial := srv.nextSerial + 1
        calls := calls })
  | sent {i : Fin maxOpenConnections} (hi : netEmptyConnectionSlot srv = some i) (calls : ℕ) :
      Attempt srv msg readCb eventCb cbArg (i.val, { srv with
        connections := Function.update srv.connections i
          (taken (srv.connections i) i
            { srv.freshBev msg.dest.IP with output := msg.text, enabled := true }
            msg readCb eventCb cbArg)
        nextSerial := srv.nextSerial + 1
        calls := calls })

/-- A slot that has just been taken for a connection to a peer. -/
def created (c : NetConnection D E A) (i : Fin maxOpenConnections) (b : Bufferevent) (IP : UInt32)
    (port : UInt16) : NetConnection D E A :=
  { c with bev := some b, sin := (IP, port), netCbArg := some i.val }

theorem netConnectionCreate_of_slot {srv : NetServer D E A} {i : Fin maxOpenConnections}
    (hi : netEmptyConnectionSlot srv = some i) (IP : UInt32) (port : UInt16) :
  netConnectionCreate srv IP port
    = if (srv.outcome srv.calls).bevNew = true then
        if (srv.outcome srv.calls).malloc = true then
          ((i.val : ℤ), { srv with
            connections := Function.update srv.connections i
              (created (srv.connections i) i (srv.freshBev IP) IP port)
            nextSerial := srv.nextSerial + 1
            calls := srv.calls + 1 })
        else
          (-1, { srv with
            connections := Function.update srv.connections i
              { srv.connections i with bev := none, sin := (0, 0), netCbArg := none }
            nextSerial := srv.nextSerial + 1
            calls := srv.calls + 1 })
      else (-1, { srv with calls := srv.calls + 1 })
  := by
  rw [netConnectionCreate]
  simp only [hi, NetServer.ask]
  by_cases hbev : (srv.outcome srv.calls).bevNew = true
  · by_cases hmalloc : (srv.outcome srv.calls).malloc = true
    · simp [hbev, hmalloc, NetServer.newBev, NetServer.modify, NetServer.freshBev, created]
    · simp [hbev, hmalloc, NetServer.newBev, NetServer.modify, NetServer.freshBev,
        netConnectionClose]
  · simp [hbev]

/-- A slot that has just been taken for an accepted connection. -/
def accepted (c : NetConnection D E A) (i : Fin maxOpenConnections) (b : Bufferevent) (readCb : D)
    (eventCb : E) (cbArg : A) : NetConnection D E A :=
  { c with
    bev := some { b with low := headerBytes, enabled := true }
    readCb := some readCb
    evtCb := some eventCb
    upperCbArg := some cbArg
    netCbArg := some i.val }

theorem listenEvtCb_of_slot {srv : NetServer D E A} {i : Fin maxOpenConnections}
    (hi : netEmptyConnectionSlot srv = some i) (peer : UInt32) (readCb : D) (eventCb : E)
    (cbArg : A) :
  listenEvtCb srv peer (incomingConnection readCb eventCb cbArg)
    = if (srv.outcome srv.calls).bevNew = true then
        if (srv.outcome srv.calls).malloc = true then
          { srv with
            connections := Function.update srv.connections i
              (accepted (srv.connections i) i (srv.freshBev peer) readCb eventCb cbArg)
            nextSerial := srv.nextSerial + 1
            calls := srv.calls + 1 }
        else
          { srv with
            connections := Function.update srv.connections i
              { srv.connections i with bev := none, sin := (0, 0), netCbArg := none }
            nextSerial := srv.nextSerial + 1
            calls := srv.calls + 1 }
      else { srv with calls := srv.calls + 1 }
  := by
  rw [listenEvtCb]
  simp only [hi, NetServer.ask]
  by_cases hbev : (srv.outcome srv.calls).bevNew = true
  · by_cases hmalloc : (srv.outcome srv.calls).malloc = true
    · simp [hbev, hmalloc, NetServer.newBev, NetServer.modify, NetServer.freshBev, accepted,
        incomingConnection, netConnectionSetReadCb, netConnectionSetEventCb, netConnectionSetCbArg,
        netConnectionSet, netConnectionGetBuffer, NetServer.modifyBev]
    · simp [hbev, hmalloc, NetServer.newBev, NetServer.modify, NetServer.freshBev,
        netConnectionClose]
  · simp [hbev]

theorem setCallbacks_coe (srv : NetServer D E A) (i : Fin maxOpenConnections) (readCb : Option D)
    (eventCb : Option E) (cbArg : Option A) :
  setCallbacks srv i.val readCb eventCb cbArg = srv.modify i (fun c => { c with
    readCb := readCb.or c.readCb
    evtCb := eventCb.or c.evtCb
    upperCbArg := cbArg.or c.upperCbArg })
  := by
  cases readCb <;> cases eventCb <;> cases cbArg <;>
    simp [setCallbacks, netConnectionSetReadCb, netConnectionSetEventCb, netConnectionSetCbArg,
      netConnectionSet, NetServer.modify]

theorem nodeSendMessage_of_bev {srv : NetServer D E A} {i : Fin maxOpenConnections}
    {b : Bufferevent} (hb : (srv.connections i).bev = some b) (msg : NodeMessage) :
  nodeSendMessage srv msg i.val
    = if (srv.outcome srv.calls).printf = true then
        if (srv.outcome (srv.calls + 1)).connect = true then
          (0, { srv with
            connections := Function.update srv.connections i { srv.connections i with
              bev := some { b with output := b.output ++ msg.text, enabled := true } }
            calls := srv.calls + 2 })
        else
          (-1, { srv with
            connections := Function.update srv.connections i
              { srv.connections i with bev := none, sin := (0, 0), netCbArg := none }
            calls := srv.calls + 2 })
      else (-1, { srv with calls := srv.calls + 1 })
  := by
  rw [nodeSendMessage, netConnectionGetBuffer]
  simp only [netSlot_coe, hb, NetServer.ask]
  by_cases hprintf : (srv.outcome srv.calls).printf = true
  · by_cases hconnect : (srv.outcome (srv.calls + 1)).connect = true
    · simp [hprintf, hconnect, netConnectionActivate, NetServer.write, NetServer.modifyBev,
        NetServer.modify, hb, NetServer.ask]
    · simp [hprintf, hconnect, netConnectionActivate, NetServer.write, NetServer.modifyBev,
        NetServer.modify, hb, NetServer.ask, netConnectionClose]
  · simp [hprintf]

theorem nodeConnectAndSendMessage_attempt (srv : NetServer D E A) (msg : NodeMessage)
    (readCb : Option D) (eventCb : Option E) (cbArg : Option A) :
  Attempt srv msg readCb eventCb cbArg
    (nodeConnectAndSendMessage srv msg readCb eventCb cbArg)
  := by
  rw [nodeConnectAndSendMessage]
  cases hi : netEmptyConnectionSlot srv with
  | none =>
    simp only [netConnectionCreate, hi]
    exact Attempt.none srv.calls
  | some i =>
    have hpos : ¬ ((i.val : ℤ) < 0) := by omega
    rw [netConnectionCreate_of_slot hi]
    split_ifs with hbev hmalloc
    · simp only [hpos, if_false, setCallbacks_coe, NetServer.modify, Function.update_self,
        Function.update_idem]
      rw [nodeSendMessage_of_bev (b := srv.freshBev msg.dest.IP)]
      · dsimp only
        by_cases hprintf : (srv.outcome (srv.calls + 1)).printf = true
        · by_cases hconnect : (srv.outcome (srv.calls + 1 + 1)).connect = true
          · simp only [hprintf, hconnect, if_true, Function.update_self, Function.update_idem]
            exact Attempt.sent hi _
          · simp only [hprintf, hconnect, if_true, Bool.false_eq_true, if_false,
              Function.update_self, Function.update_idem, Int.reduceNeg, Int.reduceEq]
            exact Attempt.refused hi _
        · simp only [hprintf, Bool.false_eq_true, if_false, Int.reduceNeg, Int.reduceEq]
          exact Attempt.unsent hi _
      · simp [created]
    · exact Attempt.lost hi _
    · exact Attempt.none _

end
