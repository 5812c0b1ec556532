import LibDht.Net.Framing

/-!
# Malformed requests

A request may announce any length, may stop anywhere, and may come from a peer whose address
cannot be found. The receiver waits for the length that is announced. When it has come, the
handler is called with what there is: removing too few bytes is no failure for it, and after
a failure it goes on.
-/

/-- `net_connection_get_remote_address`. What `getpeername` returns is not looked at: when it
finds no address, the result is what the stack holds. -/
def netConnectionGetRemoteAddress (stack : UInt32) (found : Option UInt32) : UInt32 :=
  found.getD stack

/-- The slot `i` of a running process holds an accepted connection with the serial `s`, on
which nothing has arrived yet. The address of its peer is `found`. -/
structure AcceptedFrom (p : NodeProcess) (i : Fin maxOpenConnections) (s : ℕ) (stack : UInt32)
    (found : Option UInt32) : Prop where
  bev : ∃ b, Connected p i s b ∧ b.input = [] ∧ b.low = headerBytes
    ∧ b.peer = netConnectionGetRemoteAddress stack found
  readCb : (p.net.connections i).readCb = some .incomingReadCb
  arg : (p.net.connections i).upperCbArg = some .self

/-- The bytes are a lookup without a whole identifier, or a notification without a whole
identifier and port or from an unknown address. -/
def Malformed (bytes : List UInt8) (found : Option UInt32) : Prop :=
  bytes.head? = some msgTSuccReq ∧ bytes.length < headerBytes + 4
    ∨ bytes.head? = some msgTNotif ∧ (bytes.length < headerBytes + 6 ∨ found = none)

/-- The length that a header announces. -/
def announced (bytes : List UInt8) : UInt32 :=
  UInt32.ofNat (strtoul16 ((bytes.drop 1).take 8))

/-- An event that starts a lookup, or hands out what it found. -/
def Event.StartsLookup : Event → Prop
  | .asked _ _ | .found _ _ _ => True
  | _ => False

/-- An event that starts a lookup or applies a notification. -/
def Event.ActsOnRequest : Event → Prop
  | .handled _ (.notify _ _) _ => True
  | e => e.StartsLookup

/-- Nothing has changed from `p` to `q` for the node: no lookup was started, no notification
was applied, and nothing was written to a connection that is closed. -/
structure ChangesNothing (p q : NodeProcess) : Prop where
  node : q.node = p.node
  log : ∃ es, q.log = p.log ++ es ∧ ∀ e ∈ es, ¬ e.ActsOnRequest
  running : q.net.crashed = false

/-- Something with the property has been added to the log. -/
def Logs {ν : Type} (P : Event → Prop) (p q : Process ν) : Prop :=
  ∃ es, q.log = p.log ++ es ∧ ∃ e ∈ es, P e

namespace Logs

variable {ν : Type} {P Q : Event → Prop} {p q r : Process ν}

theorem mono (h : Logs P p q) (hPQ : ∀ e, P e → Q e) :
  Logs Q p q
  := by
  obtain ⟨es, hes, e, he, hP⟩ := h
  exact ⟨es, hes, e, he, hPQ e hP⟩

/-- What is added after that does not matter. -/
theorem then_log (h : Logs P p q) (hlog : ∃ es, r.log = q.log ++ es) :
  Logs P p r
  := by
  obtain ⟨es, hes, e, he, hP⟩ := h
  obtain ⟨es', hes'⟩ := hlog
  refine ⟨es ++ es', ?_, e, List.mem_append_left _ he, hP⟩
  rw [hes', hes, List.append_assoc]

/-- Nor does what was added before. -/
theorem after_log (h : Logs P q r) (hlog : ∃ es, q.log = p.log ++ es) :
  Logs P p r
  := by
  obtain ⟨es, hes, e, he, hP⟩ := h
  obtain ⟨es', hes'⟩ := hlog
  refine ⟨es' ++ es, ?_, e, List.mem_append_right _ he, hP⟩
  rw [hes, hes', List.append_assoc]

theorem emit {e : Event} (he : P e) (p : Process ν) :
  Logs P p (p.emit e)
  := ⟨[e], rfl, e, List.mem_singleton_self e, he⟩

end Logs

theorem Acts.log_append {ν : Type} [Remote ν] {ok : FoundCb → Prop} {found : Bool}
    {p q : Process ν} (h : Acts ok found p q) :
  ∃ es, q.log = p.log ++ es
  := by
  obtain ⟨es, hes, -⟩ := h.log
  exact ⟨es, hes⟩

section

variable {ν : Type} [Remote ν]

theorem nodeFound_logs (p : Process ν) (data : NodeFoundCbData) :
  Logs Event.StartsLookup p (nodeFound p data)
  := by
  have hacts : Acts (fun _ => True) true (p.emit (.found data.cb data.node data.hops))
      (nodeFound p data) :=
    nodeFound_acts_of_emit (fun _ _ => trivial) (Acts.refl _)
  exact (Logs.emit trivial p).then_log hacts.log_append

theorem nodeFindSuccessorRemote_logs (p : Process ν) (n : NodeInfo) (id : HashType)
    (cb : FoundCb) :
  Logs Event.StartsLookup p (nodeFindSuccessorRemote p n id cb).2
  := ⟨[_], rfl, _, List.mem_singleton_self _, trivial⟩

/-- A lookup ends in a node that is handed to its callback, or goes on in a request. -/
theorem nodeFindSuccessor_logs (p : Process ν) (id : HashType) (cb : FoundCb) :
  Logs Event.StartsLookup p (nodeFindSuccessor p id cb).2
  := by
  rw [nodeFindSuccessor]
  dsimp only
  have hfirst : Acts (fun _ => True) true p
      (if nodeIdCompare p.node.self.id id == 0 then
        nodeFound p { cb := cb, node := p.node.self, hops := 0 }
      else p.lock) := by
    split
    · exact nodeFound_acts (fun _ _ => trivial) (Acts.refl p) _
    · exact (Acts.refl p).lock
  generalize (if nodeIdCompare p.node.self.id id == 0 then
        nodeFound p { cb := cb, node := p.node.self, hops := 0 }
      else p.lock) = q at hfirst ⊢
  generalize (if nodeIdCompare p.node.self.id id == 0 then cb.called else cb) = cb
  split
  · have hfound := nodeFound_logs (q.touch (nodeFirstAliveSucc q.node))
      { cb := cb, node := q.node.successorAt (nodeFirstAliveSucc q.node), hops := 0 }
    exact (hfound.after_log (hfirst.touch _).log_append).then_log ⟨[_], rfl⟩
  · apply (nodeFindSuccessorRemote_logs _ _ id cb).after_log
    refine (show Acts (fun _ => True) true p _ from ?_).log_append
    split
    · exact ((hfirst.touch _).unlock).touch _
    · exact (hfirst.touch _).unlock

end

/-! ### What a handler does -/

section

variable {p : NodeProcess} {i : Fin maxOpenConnections} {s : ℕ} {b : Bufferevent}

/-- A lookup is started with whatever there is for an identifier. -/
theorem handleSuccRequest_logs (hb : (p.net.connections i).bev = some b) :
  Logs Event.ActsOnRequest p (handleSuccRequest p i.val (some .self))
  := by
  rw [handleSuccRequest]
  rw [withBuffer_of_bev hb]
  dsimp only
  generalize hq : (p.ask.2.setInput i (u32.fill p.ask.1.node.id b.input).2).emit _ = q
  have hlog : ∃ es, q.log = p.log ++ es := by
    rw [← hq]
    exact ⟨[_], rfl⟩
  have hlookup := nodeFindSuccessor_logs q (u32.fill p.ask.1.node.id b.input).1
    (.successorFoundForRemote { connection := i.val, asker := q.net.serialAt i.val })
  apply (hlookup.after_log hlog).mono
  intro e he
  cases e with
  | asked cb rc => trivial
  | found cb n hops => trivial
  | _ => exact absurd he not_false

/-- A notification is applied in any case. -/
theorem handleNotifRequest_logs (hb : (p.net.connections i).bev = some b) :
  Logs Event.ActsOnRequest p (handleNotifRequest p i.val (some .self))
  := by
  rw [handleNotifRequest]
  rw [withBuffer_of_bev hb]
  dsimp only
  split
  · exact ⟨[_], rfl, _, List.mem_singleton_self _, trivial⟩
  · exact ⟨[_], rfl, _, List.mem_singleton_self _, trivial⟩

/-- The handler `cb` is the one for requests of the type, and acts on them. -/
structure HandlesType (type : UInt8) (cb : DataCb) : Prop where
  defer : ∀ (p : NodeProcess) (connection : ℤ) (len : UInt32),
    deferBody p connection type len
      = { p with net := (netConnectionSetReadCb p.net connection (some cb)).2 }
  call : ∀ (p : NodeProcess) (i : Fin maxOpenConnections) (b : Bufferevent),
    (p.net.connections i).bev = some b →
    Logs Event.ActsOnRequest p (runDataCb p (some (cb, (i.val : ℤ), some .self)))
  body : ∀ (p : NodeProcess) (i : Fin maxOpenConnections) (b : Bufferevent) (len : UInt32),
    (p.net.connections i).bev = some b → Logs Event.ActsOnRequest p (handleBody p i.val type len)

theorem handlesType_succReq :
  HandlesType msgTSuccReq .handleSuccRequest
  := by
  constructor
  · intro p connection len
    simp [deferBody]
  · intro p i b hb
    rw [runDataCb]
    exact handleSuccRequest_logs hb
  · intro p i b len hb
    have hbody := handleBody_type p i.val (.findSuccessor 0) len
    simp only [Request.type] at hbody
    rw [hbody]
    exact handleSuccRequest_logs hb

theorem handlesType_notif :
  HandlesType msgTNotif .handleNotifRequest
  := by
  have hsucc : msgTNotif ≠ msgTSuccReq := by decide
  have hpred : msgTNotif ≠ msgTPredReq := by decide
  have halive : msgTNotif ≠ msgTAliveReq := by decide
  constructor
  · intro p connection len
    simp [deferBody, hsucc, hpred, halive]
  · intro p i b hb
    rw [runDataCb]
    exact handleNotifRequest_logs hb
  · intro p i b len hb
    have hbody := handleBody_type p i.val (.notify 0 0) len
    simp only [Request.type] at hbody
    rw [hbody]
    exact handleNotifRequest_logs hb

theorem Malformed.handlesType {bytes : List UInt8} {found : Option UInt32}
    (h : Malformed bytes found) :
  ∃ type cb, bytes.head? = some type ∧ HandlesType type cb
  := by
  rcases h with ⟨htype, -⟩ | ⟨htype, -⟩
  · exact ⟨msgTSuccReq, .handleSuccRequest, htype, handlesType_succReq⟩
  · exact ⟨msgTNotif, .handleNotifRequest, htype, handlesType_notif⟩

/-! ### The header -/

/-- A header that has arrived is the one of the whole stream. -/
theorem nodeParseMessageHeader_of_append {type : UInt8} {buf rest bytes : List UInt8}
    (h : buf ++ rest = bytes) (hlen : headerBytes ≤ buf.length) (htype : bytes.head? = some type)
    (old : UInt8) :
  nodeParseMessageHeader old buf = ((type, announced bytes), buf.drop headerBytes)
  := by
  subst h
  cases buf with
  | nil => exact absurd hlen (by decide)
  | cons x xs =>
    have hxs : 8 ≤ xs.length := Nat.le_of_succ_le_succ hlen
    obtain rfl : x = type := by simpa using htype
    have htake : (xs ++ rest).take 8 = xs.take 8 := List.take_append_of_le_length hxs
    simp [nodeParseMessageHeader, announced, htake]

/-- A process whose connection waits for the rest of a message: the read callback and the low
watermark of the slot `i` are set. -/
def waitForBody (p : NodeProcess) (i : Fin maxOpenConnections) (cb : DataCb) (len : UInt32) :
    NodeProcess :=
  let p := { p with net := (netConnectionSetReadCb p.net i.val (some cb)).2 }
  { p with net := p.net.modifyBev i fun b => { b with low := len.toNat } }

theorem waitForBody_connection (hb : (p.net.connections i).bev = some b) (cb : DataCb)
    (len : UInt32) :
  (waitForBody p i cb len).net.connections i
    = { p.net.connections i with
        bev := some { b with low := len.toNat }, readCb := some cb }
  := by
  simp [waitForBody, netConnectionSetReadCb, netConnectionSet, NetServer.modifyBev,
    NetServer.modify, hb]

@[simp]
theorem waitForBody_node (p : NodeProcess) (i : Fin maxOpenConnections) (cb : DataCb)
    (len : UInt32) :
  (waitForBody p i cb len).node = p.node
  := by
  simp [waitForBody]

@[simp]
theorem waitForBody_log (p : NodeProcess) (i : Fin maxOpenConnections) (cb : DataCb)
    (len : UInt32) :
  (waitForBody p i cb len).log = p.log
  := by
  simp [waitForBody]

@[simp]
theorem waitForBody_crashed (p : NodeProcess) (i : Fin maxOpenConnections) (cb : DataCb)
    (len : UInt32) :
  (waitForBody p i cb len).net.crashed = p.net.crashed
  := by
  simp [waitForBody, netConnectionSetReadCb, netConnectionSet, NetServer.modifyBev,
    NetServer.modify]

/-- What a header leads to: the handler is set, or called. -/
theorem incomingReadCb_type {type : UInt8} {cb : DataCb} (hcb : HandlesType type cb)
    {len : UInt32} {body : List UInt8} (hb : (p.net.connections i).bev = some b)
    (hparse : nodeParseMessageHeader p.ask.1.byte b.input = ((type, len), body)) :
  incomingReadCb p i.val (some .self)
    = if body.length < len.toNat then waitForBody (p.ask.2.setInput i body) i cb len
      else handleBody (p.ask.2.setInput i body) i.val type len
  := by
  rw [incomingReadCb]
  simp only [withBuffer_of_bev hb, hparse, hcb.defer, waitForBody]

/-! ### The arrival of a request -/

theorem ChangesNothing.not_logs {q : NodeProcess} (h : ChangesNothing p q) :
  ¬ Logs Event.ActsOnRequest p q
  := by
  rintro ⟨es, hes, e, he, hacts⟩
  obtain ⟨es', hes', hquiet⟩ := h.log
  rw [hes'] at hes
  exact hquiet e (List.append_cancel_left hes ▸ he) hacts

theorem ChangesNothing.of_eq {q r : NodeProcess} (h : ChangesNothing q r)
    (hnode : q.node = p.node) (hlog : q.log = p.log) :
  ChangesNothing p r
  := by
  obtain ⟨hnode', hlog', hrun⟩ := h
  rw [hlog] at hlog'
  exact ⟨hnode'.trans hnode, hlog', hrun⟩

theorem changesNothing_of_eq {q : NodeProcess} (hnode : q.node = p.node) (hlog : q.log = p.log)
    (hrun : q.net.crashed = false) :
  ChangesNothing p q
  := by
  refine ⟨hnode, ⟨[], ?_, ?_⟩, hrun⟩
  · rw [hlog, List.append_nil]
  · intro e he
    cases he

theorem Logs.deliver {q : NodeProcess} (h : Logs Event.ActsOnRequest p q)
    (segments : List (List UInt8)) :
  Logs Event.ActsOnRequest p (q.deliver i s segments)
  := h.then_log (deliver_log q i s segments)

/-- A connection waits for the rest of a message: as soon as it has come, the handler is
called. -/
theorem deliver_waitForBody {type : UInt8} {cb : DataCb} (hcb : HandlesType type cb)
    (h : Connected p i s b) (harg : (p.net.connections i).upperCbArg = some .self) {len : UInt32}
    (hfew : b.input.length < len.toNat) (segments : List (List UInt8)) :
  if (b.input ++ segments.flatten).length < len.toNat then
    ChangesNothing p ((waitForBody p i cb len).deliver i s segments)
  else Logs Event.ActsOnRequest p ((waitForBody p i cb len).deliver i s segments)
  := by
  have hconnection := waitForBody_connection h.bev cb len
  have hwaits : Connected (waitForBody p i cb len) i s { b with low := len.toNat } := by
    refine ⟨by simpa using h.running, ?_, h.serial, h.enabled⟩
    rw [hconnection]
  have hmax : max len.toNat 1 = len.toNat := by omega
  have hdeliver := deliver_of_connected hwaits (by simpa [hmax] using hfew) segments
  simp only [hmax] at hdeliver
  cases hcollect : collect len.toNat b.input segments with
  | none =>
    have hshort := collect_eq_none hfew hcollect segments.length
    rw [List.take_length] at hshort
    rw [if_pos hshort, hdeliver, hcollect]
    apply changesNothing_of_eq
    · exact waitForBody_node p i cb len
    · exact waitForBody_log p i cb len
    · exact (hwaits.setInput _).running
  | some result =>
    obtain ⟨buf, rest⟩ := result
    obtain ⟨hlen, hall⟩ := collect_eq_some hcollect
    have hlong : ¬ (b.input ++ segments.flatten).length < len.toNat := by
      rw [← hall, List.length_append]
      omega
    rw [if_neg hlong, hdeliver, hcollect]
    have hread : ((waitForBody p i cb len).net.connections i).readCb = some cb := by
      rw [hconnection]
    have harg' : ((waitForBody p i cb len).net.connections i).upperCbArg = some .self := by
      rw [hconnection]
      exact harg
    have hready := readReady_setInput hread buf
    rw [harg'] at hready
    have hbuf := setInput_bev hwaits.bev buf
    have hcall := hcb.call _ i _ hbuf
    rw [← hready] at hcall
    exact (hcall.after_log ⟨[], by simp⟩).deliver rest

/-- A request is acted on when as many bytes have come as it announces, and changes nothing
before that. -/
theorem deliver_announced {type : UInt8} {cb : DataCb} (hcb : HandlesType type cb) {stack : UInt32}
    {found : Option UInt32} (h : AcceptedFrom p i s stack found) {bytes : List UInt8}
    (htype : bytes.head? = some type) {segments : List (List UInt8)}
    (hsegments : segments.flatten = bytes) :
  if bytes.length < headerBytes + (announced bytes).toNat then
    ChangesNothing p (p.deliver i s segments)
  else Logs Event.ActsOnRequest p (p.deliver i s segments)
  := by
  obtain ⟨b, hconn, hinput, hlow, -⟩ := h.bev
  have hwait : b.input.length < max b.low 1 := by simp [hinput, hlow]
  have hlow' : max b.low 1 = headerBytes := by rw [hlow]; rfl
  have hdeliver := deliver_of_connected hconn hwait segments
  rw [hlow', hinput] at hdeliver
  cases hcollect : collect headerBytes [] segments with
  | none =>
    have hshort := collect_eq_none (by decide) hcollect segments.length
    rw [List.take_length, hsegments, List.nil_append] at hshort
    rw [if_pos (by omega), hdeliver, hcollect]
    exact changesNothing_of_eq rfl rfl hconn.running
  | some result =>
    obtain ⟨buf, rest⟩ := result
    obtain ⟨hlen, hall⟩ := collect_eq_some hcollect
    rw [hsegments, List.nil_append] at hall
    have hready := readReady_setInput h.readCb buf
    rw [h.arg, runDataCb] at hready
    have hbuf := hconn.setInput buf
    have hparse := nodeParseMessageHeader_of_append hall hlen htype (p.setInput i buf).ask.1.byte
    rw [hdeliver, hcollect]
    simp only [hready]
    rw [incomingReadCb_type hcb hbuf.bev hparse]
    have hbody := (setInput_bev (p := (p.setInput i buf).ask.2) hbuf.bev (buf.drop headerBytes))
    have htotal : bytes.length
        = headerBytes + ((buf.drop headerBytes).length + rest.flatten.length) := by
      rw [← hall, List.length_append, List.length_drop]
      omega
    generalize hq : (p.setInput i buf).ask.2.setInput i (buf.drop headerBytes) = q at hbody ⊢
    have hnode : q.node = p.node := by rw [← hq]; rfl
    have hlog : q.log = p.log := by rw [← hq]; rfl
    have hafter : ∃ es, q.log = p.log ++ es := ⟨[], by rw [hlog, List.append_nil]⟩
    by_cases hfew : (buf.drop headerBytes).length < (announced bytes).toNat
    · rw [if_pos hfew]
      have hwaits : Connected q i s { b with input := buf.drop headerBytes } := by
        rw [← hq]
        exact ⟨hconn.running, by rw [hq]; exact hbody, hconn.serial, hconn.enabled⟩
      have harg : (q.net.connections i).upperCbArg = some .self := by
        rw [← hq]
        simp [Process.setInput_connections_self, NetServer.ask, h.arg]
      have hrest := deliver_waitForBody hcb hwaits harg hfew rest
      simp only [List.length_append] at hrest
      split_ifs at hrest with hshort
      · rw [if_pos (by omega)]
        exact hrest.of_eq hnode hlog
      · rw [if_neg (by omega)]
        exact hrest.after_log hafter
    · rw [if_neg hfew, if_neg (by omega)]
      exact ((hcb.body q i _ _ hbody).after_log hafter).deliver rest

/-- A malformed request changes nothing exactly when it announces more bytes than it has. -/
theorem changesNothing_iff {stack : UInt32} {found : Option UInt32}
    (h : AcceptedFrom p i s stack found) {bytes : List UInt8} (hmalformed : Malformed bytes found)
    {segments : List (List UInt8)} (hsegments : segments.flatten = bytes) :
  ChangesNothing p (p.deliver i s segments)
    ↔ bytes.length < headerBytes + (announced bytes).toNat
  := by
  obtain ⟨type, cb, htype, hcb⟩ := hmalformed.handlesType
  have hdeliver := deliver_announced hcb h htype hsegments
  split_ifs at hdeliver with hshort
  · exact iff_of_true hdeliver hshort
  · exact iff_of_false (fun hnothing => hnothing.not_logs hdeliver) hshort

end

/-- A lookup that has no identifier and announces none. -/
def lookupOfNothing : List UInt8 :=
  [83, 48, 48, 48, 48, 48, 48, 48, 48]

theorem acceptedFrom_listening :
  AcceptedFrom listening 0 0 0 (some 1)
  := by
  constructor
  · refine ⟨{ serial := 0, input := [], output := [], low := headerBytes, enabled := true,
              peer := 1 }, ⟨?_, ?_, rfl, rfl⟩, rfl, rfl, rfl⟩
    · decide +kernel
    · decide +kernel
  · decide +kernel
  · decide +kernel

theorem malformed_lookupOfNothing :
  Malformed lookupOfNothing (some 1)
  := Or.inl (by decide)

theorem changesNothing_iff_lookupOfNothing :
  ChangesNothing listening (listening.deliver 0 0 [lookupOfNothing])
    ↔ lookupOfNothing.length < headerBytes + (announced lookupOfNothing).toNat
  := changesNothing_iff acceptedFrom_listening malformed_lookupOfNothing (by simp)

/-- A lookup is started for an identifier that has not come. -/
theorem lookup_without_identifier :
  ¬ ∀ (p : NodeProcess) (i : Fin maxOpenConnections) (s : ℕ) (stack : UInt32)
    (found : Option UInt32) (bytes : List UInt8) (segments : List (List UInt8)),
    AcceptedFrom p i s stack found → Malformed bytes found → segments.flatten = bytes →
    ChangesNothing p (p.deliver i s segments)
  := by
  intro h
  have hlookup := deliver_announced handlesType_succReq acceptedFrom_listening
    (show lookupOfNothing.head? = some msgTSuccReq from rfl)
    (show [lookupOfNothing].flatten = lookupOfNothing by simp)
  rw [if_neg (by decide)] at hlookup
  exact (h listening 0 0 0 (some 1) lookupOfNothing [lookupOfNothing] acceptedFrom_listening
    malformed_lookupOfNothing (by simp)).not_logs hlookup
