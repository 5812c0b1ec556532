import LibDht.Net.Written
import LibDht.Net.Delivery

/-!
# What the callbacks of a node read

A request or a reply that is cut short is filled up with what was in its place, and so is
the answer to a liveness probe. A callback does to an erased process what it does to the
process, erased, when what it is called for has arrived whole, and what the operation that
it leads to reads has been written. What has been freed, and an argument that is not what the
callback takes it for, are nothing that has been written.
-/

/-! ### Reading replies -/

/-- A reply has arrived with all the bytes that its callback looks at. -/
def ReplyWritten (cb : FoundCb) (input : List UInt8) : Prop :=
  input ≠ [] ∧
    if input.headD 0 = replyYes then (if cb.readsHops then 13 else 11) ≤ input.length
    else cb.readsHops = false

/-- Such a reply is read as the same node, with the same hops when they are looked at,
whatever was in its place. -/
theorem readFound_congr {cb : FoundCb} {input : List UInt8} (h : ReplyWritten cb input)
    (old old' : NodeInfo × Int16) (result result' : UInt8) :
  (readFound old result input).1 = (readFound old' result' input).1
    ∧ (cb.readsHops = true → (readFound old result input).2 = (readFound old' result' input).2)
  := by
  obtain ⟨hne, h⟩ := h
  obtain ⟨x, rest, rfl⟩ := List.exists_cons_of_ne_nil hne
  rw [List.headD_cons, List.length_cons] at h
  by_cases hx : x = replyYes
  · subst hx
    rw [if_pos rfl] at h
    have hnode : 10 ≤ rest.length := by
      split_ifs at h
      · omega
      · omega
    have hid : u32.size ≤ rest.length := le_trans (by decide) hnode
    have hIP : u32.size ≤ (rest.drop 4).length := by
      rw [List.length_drop, show u32.size = 4 from rfl]
      omega
    have hport : u16.size ≤ (rest.drop 8).length := by
      rw [List.length_drop, show u16.size = 2 from rfl]
      omega
    simp only [readFound_yes, u32.fill_of_length hid, u32.fill_of_length hIP,
      u16.fill_of_length hport, true_and]
    intro hlooks
    rw [if_pos hlooks] at h
    have hhops : i16.size ≤ (rest.drop 10).length := by
      rw [List.length_drop, show i16.size = 2 from rfl]
      omega
    rw [i16.fill_of_length hhops, i16.fill_of_length hhops]
  · rw [if_neg hx] at h
    rw [readFound_no hx, readFound_no hx, h]
    simp

/-! ### Buffers and arguments -/

/-- An argument is erased to itself when it is no record for a reply, and nothing else is
erased to it. -/
theorem erased_eq_iff {arg : CbArg} (harg : ∀ data, arg ≠ .found data) (a : CbArg) :
  a.erased = arg.erased ↔ a = arg
  := by
  cases arg with
  | found data => exact absurd rfl (harg data)
  | _ => cases a <;> simp [CbArg.erased]

theorem dangle_erased {arg : CbArg} {c : NetConnection DataCb EventCb CbArg}
    (harg : c.upperCbArg = some arg ∨ ∀ data, arg ≠ .found data) :
  NodeNet.dangle arg.erased (c.erased CbArg.erased) = (NodeNet.dangle arg c).erased CbArg.erased
  := by
  have hiff : (c.erased CbArg.erased).upperCbArg = some arg.erased ↔ c.upperCbArg = some arg := by
    rw [NetConnection.erased]
    rcases harg with h | h
    · simp [h]
    · cases c.upperCbArg with
      | none => simp
      | some a => simp [erased_eq_iff h]
  rw [NodeNet.dangle, NodeNet.dangle]
  by_cases h : c.upperCbArg = some arg
  · rw [if_pos h, if_pos (hiff.mpr h)]
    rfl
  · rw [if_neg h, if_neg (mt hiff.mp h)]

namespace Process

variable {entered : Bool} {p : NodeProcess}

@[simp] theorem crash_erased : (p.erased entered).crash = p.crash.erased entered := rfl

@[simp] theorem ask_erased :
  (p.erased entered).ask = (p.ask.1.erased, p.ask.2.erased entered) := rfl

@[simp]
theorem close_erased (connection : ℤ) :
  (p.erased entered).close connection = (p.close connection).erased entered
  := by
  rw [close, close, erased_net, netConnectionClose_erased]
  rfl

@[simp]
theorem setInput_erased (i : Fin maxOpenConnections) (rest : List UInt8) :
  (p.erased entered).setInput i rest = (p.setInput i rest).erased entered
  := by
  rw [setInput, setInput, erased_net, NetServer.modifyBev_erased]
  rfl

@[simp]
theorem write_erased (i : Fin maxOpenConnections) (bytes : List UInt8) :
  { p.erased entered with net := (p.erased entered).net.write i bytes }
    = ({ p with net := p.net.write i bytes } : NodeProcess).erased entered
  := by
  rw [erased_net, NetServer.write_erased]
  rfl

/-- An argument that the slot has, or that is not a record for a reply, is freed. -/
theorem free_erased {connection : ℤ} {arg : CbArg}
    (harg : (∀ i, connection = (i.val : ℤ) → (p.net.connections i).upperCbArg = some arg)
      ∨ ∀ data, arg ≠ .found data) :
  (p.erased entered).free connection arg.erased = (p.free connection arg).erased entered
  := by
  have hset : netConnectionSet (NodeNet.erased p.net) connection (NodeNet.dangle arg.erased)
      = Prod.map id NodeNet.erased (netConnectionSet p.net connection (NodeNet.dangle arg)) := by
    apply netConnectionSet_erased
    intro i hi
    exact dangle_erased (harg.imp_left fun h => h i hi)
  rw [free, free, erased_net, hset]
  rfl

/-- The buffer of a connection is used in the same way. -/
theorem withBuffer_erased {connection : ℤ}
    {f g : NodeProcess → Fin maxOpenConnections → Bufferevent → NodeProcess}
    (hfg : ∀ i b, connection = (i.val : ℤ) → (p.net.connections i).bev = some b →
      g (p.erased entered) i b = (f p i b).erased entered) :
  (p.erased entered).withBuffer connection g = (p.withBuffer connection f).erased entered
  := by
  rw [withBuffer, withBuffer, netConnectionGetBuffer, netConnectionGetBuffer]
  cases hi : netSlot connection with
  | none => rfl
  | some i =>
    simp only [erased_net, NetServer.erased_connections, NetConnection.erased_bev]
    cases hb : (p.net.connections i).bev with
    | none => rfl
    | some b => exact hfg i b (netSlot_eq_some hi) hb

end Process

/-! ### Handlers -/

/-- What the handler of a message of the given type reads, in the body that is in the buffer
of the connection and in the state of the node, has been written. The reply to a liveness
probe is never written whole, and a message for the application needs its handler. -/
def RequestWritten (entered : Bool) (p : NodeProcess) (type : UInt8) (peer : UInt32)
    (body : List UInt8) : Prop :=
  if type = msgTSuccReq then
    4 ≤ body.length ∧ ∀ data,
      LookupWritten p (u32.decode (body.take 4)) (.successorFoundForRemote data)
  else if type = msgTPredReq then entered = true
  else if type = msgTAliveReq then False
  else if type = msgTNotif then entered = true ∧ peer ≠ 0 ∧ 6 ≤ body.length
  else if type = msgTNodeMsg then HandlerWritten p.log
  else True

section

variable {entered : Bool} {p : NodeProcess}

/-- What a lookup reads is not in the connection table. -/
theorem LookupWritten.of_net {i : HashType} {cb : FoundCb} (h : LookupWritten p i cb)
    (net : NodeNet) :
  LookupWritten { p with net := net } i cb
  := ⟨h.alive, h.search, h.arg⟩

theorem RequestWritten.of_net {type : UInt8} {peer : UInt32} {body : List UInt8}
    (h : RequestWritten entered p type peer body) (net : NodeNet) :
  RequestWritten entered { p with net := net } type peer body
  := by
  rw [RequestWritten] at h ⊢
  split_ifs at h ⊢
  · exact ⟨h.1, fun data => (h.2 data).of_net net⟩
  all_goals exact h

/-- What has been written stays written. -/
theorem LookupWritten.emit {i : HashType} {cb : FoundCb} (h : LookupWritten p i cb) (e : Event) :
  LookupWritten (p.emit e) i cb
  := by
  obtain ⟨halive, hsearch, harg⟩ := h
  refine ⟨halive, hsearch.imp_right ?_, harg⟩
  intro hsearch
  refine hsearch.imp_right ?_
  intro hwritten k hk habove
  refine (hwritten k hk habove).imp_left ?_
  intro hfinger
  exact (fingerWritten_append k).mpr (Or.inl hfinger)

theorem handleSuccRequest_erased {connection : ℤ}
    (h : ∀ i b, connection = (i.val : ℤ) → (p.net.connections i).bev = some b →
      RequestWritten entered p msgTSuccReq b.peer b.input) :
  handleSuccRequest (p.erased entered) connection (some .self)
    = (handleSuccRequest p connection (some .self)).erased entered
  := by
  rw [handleSuccRequest, handleSuccRequest]
  apply Process.withBuffer_erased
  intro i b hi hb
  have hwritten := h i b hi hb
  rw [RequestWritten, if_pos rfl] at hwritten
  obtain ⟨hlen, hlookup⟩ := hwritten
  have hrest : ∀ data, LookupWritten (p.ask.2.setInput i (b.input.drop u32.size))
      (u32.decode (b.input.take u32.size)) (.successorFoundForRemote data) :=
    fun data => (hlookup data).of_net _
  simp only [Process.ask_erased, u32.fill_of_length hlen, Process.setInput_erased]
  generalize p.ask.2.setInput i (b.input.drop u32.size) = q at hrest ⊢
  generalize u32.decode (b.input.take u32.size) = rId at hrest ⊢
  have hcb : ∀ data, (FoundCb.successorFoundForRemote data).Passive := fun _ => trivial
  have hemit : (q.erased entered).emit (.handled connection (.findSuccessor rId) b.input.length)
      = (q.emit (.handled connection (.findSuccessor rId) b.input.length)).erased entered :=
    Process.emit_erased entered q
      (e := .handled connection (.findSuccessor rId) b.input.length) ⟨fun _ => rfl, rfl⟩
  rw [hemit]
  exact congrArg Prod.snd (nodeFindSuccessor_erased (hcb _) (by simp) ((hrest _).emit _))

theorem handlePredRequest_erased {connection : ℤ}
    (h : ∀ i b, connection = (i.val : ℤ) → (p.net.connections i).bev = some b →
      RequestWritten entered p msgTPredReq b.peer b.input) :
  handlePredRequest (p.erased entered) connection (some .self)
    = (handlePredRequest p connection (some .self)).erased entered
  := by
  rw [handlePredRequest, handlePredRequest]
  apply Process.withBuffer_erased
  intro i b hi hb
  obtain rfl : entered = true := h i b hi hb
  have hemit := Process.emit_erased true p
    (e := .handled connection .predecessor b.input.length) ⟨fun _ => rfl, rfl⟩
  rw [Event.shown] at hemit
  · rw [hemit]
    exact Process.write_erased i _
  · rintro cb n hops ⟨⟩

theorem handleAliveRequest_erased {connection : ℤ}
    (h : ∀ i b, connection = (i.val : ℤ) → (p.net.connections i).bev = some b →
      RequestWritten entered p msgTAliveReq b.peer b.input) :
  handleAliveRequest (p.erased entered) connection (some .self)
    = (handleAliveRequest p connection (some .self)).erased entered
  := by
  rw [handleAliveRequest, handleAliveRequest]
  apply Process.withBuffer_erased
  intro i b hi hb
  exact absurd (h i b hi hb) not_false

theorem nodeNotified_erased (s : NodeSelf) (log : List Event) (n : NodeInfo) :
  nodeNotified (s.erased true log) n = (nodeNotified s n).erased true log
  := by
  rw [nodeNotified, nodeNotified, NodeSelf.erased_hasPred, NodeSelf.erased_self,
    NodeSelf.erased_predecessor]
  split_ifs
  · rfl
  · rfl

theorem handleNotifRequest_erased {connection : ℤ}
    (h : ∀ i b, connection = (i.val : ℤ) → (p.net.connections i).bev = some b →
      RequestWritten entered p msgTNotif b.peer b.input) :
  handleNotifRequest (p.erased entered) connection (some .self)
    = (handleNotifRequest p connection (some .self)).erased entered
  := by
  rw [handleNotifRequest, handleNotifRequest]
  apply Process.withBuffer_erased
  intro i b hi hb
  obtain ⟨rfl, hpeer, hlen⟩ : entered = true ∧ b.peer ≠ 0 ∧ 6 ≤ b.input.length := h i b hi hb
  have hid : u32.size ≤ b.input.length := by
    change 4 ≤ _
    omega
  have hport : u16.size ≤ (b.input.drop u32.size).length := by
    change 2 ≤ _
    rw [List.length_drop, show u32.size = 4 from rfl]
    omega
  have hpeer' : ¬ (b.peer == 0) = true := by simpa using hpeer
  simp only [Process.ask_erased, if_neg hpeer', u32.fill_of_length hid, u16.fill_of_length hport,
    Process.setInput_erased]
  generalize p.ask.2.setInput i _ = q
  generalize u32.decode _ = id
  generalize u16.decode _ = port
  have hemit : (q.erased true).emit (.handled connection (.notify id port) b.input.length)
      = (q.emit (.handled connection (.notify id port) b.input.length)).erased true :=
    Process.emit_erased true q (e := .handled connection (.notify id port) b.input.length)
      ⟨fun _ => rfl, rfl⟩
  rw [hemit, ← Process.close_erased]
  generalize q.emit _ = r
  rw [Process.erased_node, nodeNotified_erased]
  rfl

theorem handleNodeMessage_erased (h : HandlerWritten p.log) (connection : ℤ)
    (arg : Option CbArg) :
  handleNodeMessage (p.erased entered) connection (arg.map CbArg.erased)
    = (handleNodeMessage p connection arg).erased entered
  := by
  rcases arg with _ | (_ | data | cb | ⟨type, len⟩ | n | _)
  · rfl
  · rfl
  · rfl
  · rfl
  · have havailable : (netConnectionGetBuffer (p.erased entered).net connection).1
        = (netConnectionGetBuffer p.net connection).1 := by
      rw [Process.erased_net, netConnectionGetBuffer_erased]
      rfl
    have hcb : (p.erased entered).node.msgCb = p.node.msgCb
        ∧ (p.erased entered).node.msgCbArg = p.node.msgCbArg := ⟨if_pos h, if_pos h⟩
    change handleNodeMessage (p.erased entered) connection (some (.msg type len)) = _
    rw [handleNodeMessage, handleNodeMessage, havailable, hcb.1, hcb.2]
    generalize ((netConnectionGetBuffer p.net connection).1.map (·.2.input.length)).getD 0 = n
    have hemit := Process.emit_erased entered p
      (e := .nodeMessage p.node.msgCb p.node.msgCbArg connection type len n)
      ⟨fun _ => rfl, rfl⟩
    rw [Event.shown] at hemit
    have hne : ∀ data, CbArg.msg type len ≠ .found data := fun _ => CbArg.noConfusion
    · rw [hemit]
      exact Process.free_erased (Or.inr hne)
    · rintro cb node hops ⟨⟩
  · rfl
  · rfl

theorem deferBody_erased (connection : ℤ) (type : UInt8) (len : UInt32) :
  deferBody (p.erased entered) connection type len
    = (deferBody p connection type len).erased entered
  := by
  have harg (net : NodeNet) : netConnectionSetCbArg net.erased connection (some (.msg type len))
      = Prod.map id NodeNet.erased
        (netConnectionSetCbArg net connection (some (.msg type len))) :=
    netConnectionSetCbArg_erased net connection (some (.msg type len))
  rw [deferBody, deferBody]
  simp only [Process.erased_net, netConnectionSetReadCb_erased, netConnectionSetEventCb_erased,
    Prod.map_snd, harg]
  split_ifs <;> rfl

theorem handleBody_erased {connection : ℤ} {type : UInt8} (len : UInt32)
    (hslot : ∃ i b, connection = ((i : Fin maxOpenConnections).val : ℤ)
      ∧ (p.net.connections i).bev = some b)
    (h : ∀ i b, connection = (i.val : ℤ) → (p.net.connections i).bev = some b →
      RequestWritten entered p type b.peer b.input) :
  handleBody (p.erased entered) connection type len
    = (handleBody p connection type len).erased entered
  := by
  rw [handleBody, handleBody]
  split_ifs with h₁ h₂ h₃ h₄ h₅
  · subst h₁
    exact handleSuccRequest_erased h
  · subst h₂
    exact handlePredRequest_erased h
  · subst h₃
    exact handleAliveRequest_erased h
  · subst h₄
    exact handleNotifRequest_erased h
  · subst h₅
    obtain ⟨i, b, hi, hb⟩ := hslot
    exact handleNodeMessage_erased (h i b hi hb) connection (some (.msg msgTNodeMsg len))
  · rfl

/-- What the reader of headers reads has been written: something has arrived, and when the
whole message has, what its handler reads. -/
def HeaderWritten (entered : Bool) (p : NodeProcess) (b : Bufferevent) : Prop :=
  b.input ≠ [] ∧
    let ((type, len), rest) := nodeParseMessageHeader 0 b.input
    rest.length < len.toNat ∨ RequestWritten entered p type b.peer rest

theorem incomingReadCb_erased {connection : ℤ}
    (h : ∀ i b, connection = (i.val : ℤ) → (p.net.connections i).bev = some b →
      HeaderWritten entered p b) :
  incomingReadCb (p.erased entered) connection (some .self)
    = (incomingReadCb p connection (some .self)).erased entered
  := by
  rw [incomingReadCb, incomingReadCb]
  apply Process.withBuffer_erased
  intro i b hi hb
  obtain ⟨hne, hbody⟩ := h i b hi hb
  have hheader (old : UInt8) :
      nodeParseMessageHeader old b.input = nodeParseMessageHeader 0 b.input := by
    obtain ⟨x, rest, hinput⟩ := List.exists_cons_of_ne_nil hne
    rw [hinput]
    rfl
  simp only [Process.ask_erased, hheader]
  generalize nodeParseMessageHeader 0 b.input = header at hbody
  obtain ⟨⟨type, len⟩, rest⟩ := header
  simp only [Process.setInput_erased] at hbody ⊢
  split_ifs with hlen
  · rw [deferBody_erased]
    generalize deferBody _ connection type len = q
    rw [Process.erased_net, NetServer.modifyBev_erased]
    rfl
  · have hself := setInput_bev (p := p.ask.2) hb rest
    apply handleBody_erased _ ⟨i, _, hi, hself⟩
    intro j b' hj hb'
    obtain rfl : i = j := Fin.ext (by omega)
    obtain rfl := Option.some.inj (hself.symm.trans hb')
    exact (hbody.resolve_left hlen).of_net _

/-- The end of a probe. -/
theorem closeProbe_erased (connection : ℤ) (cb : CheckCb) :
  ((p.erased entered).close connection).free connection (.check cb)
    = ((p.close connection).free connection (.check cb)).erased entered
  := by
  have hne : ∀ data, CbArg.check cb ≠ .found data := fun _ => CbArg.noConfusion
  rw [Process.close_erased]
  exact Process.free_erased (Or.inr hne)

theorem nodeCheckNodeReply_erased (connection : ℤ) (arg : Option CbArg) :
  nodeCheckNodeReply (p.erased entered) connection (arg.map CbArg.erased)
    = (nodeCheckNodeReply p connection arg).erased entered
  := by
  rcases arg with _ | (_ | data | cb | ⟨type, len⟩ | n | _)
  · rfl
  · rfl
  · rfl
  · change nodeCheckNodeReply (p.erased entered) connection (some (.check cb)) = _
    rw [nodeCheckNodeReply, nodeCheckNodeReply]
    apply Process.withBuffer_erased
    intro i b hi hb
    cases readln b.input with
    | none => rfl
    | some token =>
      dsimp only
      rw [nodeCheckResult_erased, closeProbe_erased]
  · rfl
  · rfl
  · rfl

theorem nodeCheckNodeEvent_erased (connection : ℤ) (what : UInt16) (arg : Option CbArg) :
  nodeCheckNodeEvent (p.erased entered) connection what (arg.map CbArg.erased)
    = (nodeCheckNodeEvent p connection what arg).erased entered
  := by
  rcases arg with _ | (_ | data | cb | ⟨type, len⟩ | n | _)
  · rfl
  · rfl
  · rfl
  · change nodeCheckNodeEvent (p.erased entered) connection what (some (.check cb)) = _
    rw [nodeCheckNodeEvent, nodeCheckNodeEvent]
    split_ifs
    · rw [nodeCheckResult_erased]
      exact closeProbe_erased connection cb
    · exact closeProbe_erased connection cb
    · rfl
  · rfl
  · rfl
  · rfl

/-- An event is dealt with no matter what memory holds. -/
theorem runEventCb_erased (what : UInt16) (cb : EventCb) (connection : ℤ) (arg : Option CbArg) :
  runEventCb (p.erased entered) what (some (cb, connection, arg.map CbArg.erased))
    = (runEventCb p what (some (cb, connection, arg))).erased entered
  := by
  have hclose : (p.erased entered).close connection = (p.close connection).erased entered :=
    Process.close_erased connection
  cases cb with
  | nodeRemoteFindEvent => rfl
  | nodeNotifyRepEvent =>
    rcases arg with _ | (_ | data | cb | ⟨type, len⟩ | n | _)
    · rfl
    · change nodeNotifyRepEvent (p.erased entered) connection what (some .self)
        = (nodeNotifyRepEvent p connection what (some .self)).erased entered
      rw [nodeNotifyRepEvent, nodeNotifyRepEvent, hclose, apply_ite (Process.erased entered)]
    all_goals rfl
  | nodeCheckNodeEvent => exact nodeCheckNodeEvent_erased connection what arg
  | incomingEventCb =>
    rcases arg with _ | (_ | data | cb | ⟨type, len⟩ | n | _)
    · rfl
    · change incomingEventCb (p.erased entered) connection what (some .self)
        = (incomingEventCb p connection what (some .self)).erased entered
      rw [incomingEventCb, incomingEventCb, hclose, apply_ite (Process.erased entered)]
    all_goals rfl
  | incomingEventMsgCb =>
    rcases arg with _ | (_ | data | cb | ⟨type, len⟩ | n | _)
    · rfl
    · rfl
    · rfl
    · rfl
    · change incomingEventMsgCb (p.erased entered) connection what (some (.msg type len))
        = (incomingEventMsgCb p connection what (some (.msg type len))).erased entered
      rw [incomingEventMsgCb, incomingEventMsgCb, hclose, apply_ite (Process.erased entered)]
    all_goals rfl
  | app cb => rfl

end

/-! ### Calls -/

/-- What a callback reads for which data has arrived has been written. -/
def CallWritten (entered : Bool) (p : NodeProcess) (b : Bufferevent) :
    DataCb → Option CbArg → Prop
  | .nodeFoundRemoteCb, some (.found data) =>
    ReplyWritten data.cb b.input
      ∧ FoundWritten p.node data.cb (readFound (nullNode, 0) 0 b.input).1
  | .incomingReadCb, some .self => HeaderWritten entered p b
  | .handleSuccRequest, some .self => RequestWritten entered p msgTSuccReq b.peer b.input
  | .handlePredRequest, some .self => RequestWritten entered p msgTPredReq b.peer b.input
  | .handleAliveRequest, some .self => RequestWritten entered p msgTAliveReq b.peer b.input
  | .handleNotifRequest, some .self => RequestWritten entered p msgTNotif b.peer b.input
  | .handleNodeMessage, some (.msg _ _) => HandlerWritten p.log
  | .nodeCheckNodeReply, some (.check _) | .app _, _ | _, none => True
  | _, some _ => False

/-- The callback for an event is called with what it takes its argument for. -/
def EventWritten : EventCb → Option CbArg → Prop
  | .nodeNotifyRepEvent, some .self | .incomingEventCb, some .self => True
  | .nodeCheckNodeEvent, some (.check _) | .incomingEventMsgCb, some (.msg _ _) => True
  | .nodeRemoteFindEvent, _ | .app _, _ | _, none => True
  | _, some _ => False

section

variable {entered : Bool} {p q : NodeProcess} {i : Fin maxOpenConnections} {b : Bufferevent}

/-- The reply to a request for a node, with its hops when they are looked at. -/
def replyFound (p : NodeProcess) (i : Fin maxOpenConnections) (b : Bufferevent)
    (data : NodeFoundCbData) : NodeProcess :=
  nodeFound (((p.ask.2.emit (.replyRead b.serial)).close i.val).free i.val (.found data))
    { cb := data.cb
      node := (readFound (nullNode, 0) 0 b.input).1
      hops := if data.cb.readsHops then (readFound (nullNode, 0) 0 b.input).2 else 0 }

/-- A reply that has arrived whole is read as from cleared memory. -/
theorem nodeFoundRemoteCb_erased {data : NodeFoundCbData}
    (hb : (p.net.connections i).bev = some b)
    (harg : (p.net.connections i).upperCbArg = some (.found data))
    (h : CallWritten entered p b .nodeFoundRemoteCb (some (.found data))) :
  (nodeFoundRemoteCb p i.val (some (.found data))).erased entered
    = replyFound (p.erased entered) i b data.erased
  := by
  obtain ⟨hreply, hfound⟩ := h
  obtain ⟨hnode, hhops⟩ := readFound_congr hreply (data.node, data.hops) (nullNode, 0)
    p.ask.1.byte 0
  have hread : (p.erased entered).ask.2.emit (.replyRead b.serial)
      = (p.ask.2.emit (.replyRead b.serial)).erased entered :=
    Process.emit_erased entered p.ask.2 (e := .replyRead b.serial) ⟨fun _ => rfl, rfl⟩
  have hown : ∀ j : Fin maxOpenConnections, (i.val : ℤ) = (j.val : ℤ) →
      (((p.ask.2.emit (.replyRead b.serial)).close i.val).net.connections j).upperCbArg
        = some (.found data) := by
    intro j hj
    obtain rfl : i = j := Fin.ext (by omega)
    simpa [netConnectionClose, NetServer.modify, NetServer.ask] using harg
  have hrecord : CbArg.found data.erased = (CbArg.found data).erased := rfl
  have hcb : data.erased.cb = data.cb := rfl
  rw [nodeFoundRemoteCb_of_bev hb, replyFound, hread, Process.close_erased, hrecord, hcb,
    Process.free_erased (Or.inl hown)]
  rw [← p.ask_node, ← Process.emit_node p.ask.2 (.replyRead b.serial), ← Process.close_node _ i.val,
    ← Process.free_node _ i.val (.found data)] at hfound
  generalize ((p.ask.2.emit (.replyRead b.serial)).close i.val).free i.val (.found data) = r
    at hfound ⊢
  rw [hnode, ← nodeFound_erased hfound]
  by_cases hlooks : data.cb.readsHops = true
  · rw [if_pos hlooks, if_pos hlooks, hhops hlooks]
  · rw [if_neg hlooks, if_neg hlooks]

/-- Every other callback does to an erased process what it does to the process. -/
theorem runDataCb_erased {cb : DataCb} (hcb : cb ≠ .nodeFoundRemoteCb) {arg : Option CbArg}
    (hb : (p.net.connections i).bev = some b) (h : CallWritten entered p b cb arg) :
  runDataCb (p.erased entered) (some (cb, i.val, arg.map CbArg.erased))
    = (runDataCb p (some (cb, i.val, arg))).erased entered
  := by
  have hthis (R : Bufferevent → Prop) (hR : R b) :
      ∀ j b', (i.val : ℤ) = ((j : Fin maxOpenConnections).val : ℤ) →
        (p.net.connections j).bev = some b' → R b' := by
    intro j b' hj hb'
    obtain rfl : i = j := Fin.ext (by omega)
    obtain rfl := Option.some.inj (hb.symm.trans hb')
    exact hR
  cases cb with
  | nodeFoundRemoteCb => exact absurd rfl hcb
  | nodeCheckNodeReply => exact nodeCheckNodeReply_erased i.val arg
  | handleNodeMessage =>
    rcases arg with _ | (_ | _ | _ | ⟨type, len⟩ | _ | _)
    · rfl
    · exact absurd h not_false
    · exact absurd h not_false
    · exact absurd h not_false
    · exact handleNodeMessage_erased h i.val (some (.msg type len))
    · exact absurd h not_false
    · exact absurd h not_false
  | app cb => rfl
  | incomingReadCb =>
    rcases arg with _ | (_ | _ | _ | _ | _ | _)
    · rfl
    · simp only [Option.map_some, CbArg.erased, runDataCb]
      exact incomingReadCb_erased (hthis (HeaderWritten entered p) h)
    all_goals rfl
  | handleSuccRequest =>
    rcases arg with _ | (_ | _ | _ | _ | _ | _)
    · rfl
    · simp only [Option.map_some, CbArg.erased, runDataCb]
      exact handleSuccRequest_erased
        (hthis (fun b => RequestWritten entered p msgTSuccReq b.peer b.input) h)
    all_goals rfl
  | handlePredRequest =>
    rcases arg with _ | (_ | _ | _ | _ | _ | _)
    · rfl
    · simp only [Option.map_some, CbArg.erased, runDataCb]
      exact handlePredRequest_erased
        (hthis (fun b => RequestWritten entered p msgTPredReq b.peer b.input) h)
    all_goals rfl
  | handleAliveRequest =>
    rcases arg with _ | (_ | _ | _ | _ | _ | _)
    · rfl
    · simp only [Option.map_some, CbArg.erased, runDataCb]
      exact handleAliveRequest_erased
        (hthis (fun b => RequestWritten entered p msgTAliveReq b.peer b.input) h)
    all_goals rfl
  | handleNotifRequest =>
    rcases arg with _ | (_ | _ | _ | _ | _ | _)
    · rfl
    · simp only [Option.map_some, CbArg.erased, runDataCb]
      exact handleNotifRequest_erased
        (hthis (fun b => RequestWritten entered p msgTNotif b.peer b.input) h)
    all_goals rfl

end
