import LibDht.Net.Delivery

/-!
# Requests in segments

A request is to be handled once, when its body has arrived whole, however its bytes are cut
into segments. The sender prints a length of `0` into the header of every request, as none
has content. The receiver waits for the nine bytes of the header, and then has no reason to
wait for the body: it handles the request with what has come. The request is handled as it
should be exactly when no segment ends between the header and the end of the body.
-/

/-- The type of a request, as the receiver knows it. -/
def Request.type : Request → UInt8
  | .findSuccessor _ => msgTSuccReq
  | .predecessor => msgTPredReq
  | .alive => msgTAliveReq
  | .notify _ _ => msgTNotif

/-- The requests whose handlers were entered, with the slots they came in on and the numbers
of body bytes that were there, in order. -/
def handledRequests (log : List Event) : List (ℤ × Request × ℕ) :=
  log.filterMap fun
    | .handled connection r available => some (connection, r, available)
    | _ => none

/-- The slot `i` of a running process holds an accepted connection with the serial `s`, from
an address other than `0`, on which nothing has arrived yet. -/
structure Accepted (p : NodeProcess) (i : Fin maxOpenConnections) (s : ℕ) : Prop where
  bev : ∃ b, Connected p i s b ∧ b.input = [] ∧ b.low = headerBytes ∧ b.peer ≠ 0
  readCb : (p.net.connections i).readCb = some .incomingReadCb
  arg : (p.net.connections i).upperCbArg = some .self

/-- The request `r` is handled once, with its whole body there, and the outcome is the one of
its arrival at once. -/
def Framed (p : NodeProcess) (i : Fin maxOpenConnections) (s : ℕ) (r : Request)
    (segments : List (List UInt8)) : Prop :=
  (∃ es n, (p.deliver i s segments).log = p.log ++ es ∧ handledRequests es = [((i.val : ℤ), r, n)]
      ∧ r.body.length ≤ n)
    ∧ p.deliver i s segments = p.deliver i s [r.wire]

/-! ### Headers -/

/-- A request has a header that announces nothing. -/
theorem Request.wire_eq (r : Request) :
  r.wire = messageHeader r.type 0 ++ r.body
  := by
  cases r <;> rfl

theorem Request.length_wire (r : Request) :
  r.wire.length = headerBytes + r.body.length
  := by
  rw [r.wire_eq, List.length_append, length_messageHeader]

@[simp]
theorem handledRequests_append (l l' : List Event) :
  handledRequests (l ++ l') = handledRequests l ++ handledRequests l'
  := List.filterMap_append ..

theorem handledRequests_eq_nil {l : List Event} {found : Bool} (h : ∀ e ∈ l, e.Internal found) :
  handledRequests l = []
  := by
  apply List.filterMap_eq_nil_iff.mpr
  intro e he
  cases e with
  | handled c r n => exact absurd (h _ he) not_false
  | _ => rfl

section

variable {p : NodeProcess} {i : Fin maxOpenConnections} {s : ℕ}

/-- A connection that is accepted is one on which nothing has arrived. -/
theorem accepted_of_accept (hrunning : p.net.crashed = false)
    (hi : netEmptyConnectionSlot p.net = some i)
    (hbev : (p.net.outcome p.net.calls).bevNew = true)
    (hmalloc : (p.net.outcome p.net.calls).malloc = true) {peer : UInt32} (hpeer : peer ≠ 0) :
  Accepted (p.occur (.accept peer)) i p.net.nextSerial
  := by
  let handler : ℤ → NodeNet → NodeNet := incomingConnection .incomingReadCb .incomingEventCb .self
  have hoccur : p.occur (.accept peer) = { p with net := listenEvtCb p.net peer handler } := by
    rw [Process.occur]
    rw [hrunning]
    rfl
  rw [hoccur, listenEvtCb_of_slot hi, if_pos hbev, if_pos hmalloc]
  constructor
  · refine ⟨{ p.net.freshBev peer with low := headerBytes, enabled := true },
      ⟨hrunning, ?_, rfl, rfl⟩, rfl, rfl, hpeer⟩
    simp [accepted]
  · simp [accepted]
  · simp [accepted]

/-- A header that has arrived leads to the handler at once. -/
theorem incomingReadCb_header {b : Bufferevent} {type : UInt8} {body : List UInt8}
    (hb : (p.net.connections i).bev = some b) (hinput : b.input = messageHeader type 0 ++ body) :
  incomingReadCb p i.val (some .self) = handleBody (p.ask.2.setInput i body) i.val type 0
  := by
  have hparse := nodeParseMessageHeader_append p.ask.1.byte type 0 body
  rw [incomingReadCb]
  simp only [withBuffer_of_bev hb, hinput, hparse]
  rw [if_neg]
  exact Nat.not_lt_zero _

/-- A handler is entered with `r`, and no other is entered after that. -/
def EntersOnce (p q : NodeProcess) (i : Fin maxOpenConnections) (r : Request) (n : ℕ) : Prop :=
  ∃ es, q.log = p.log ++ .handled i.val r n :: es ∧ ∀ e ∈ es, e.Internal true

theorem handleSuccRequest_enters {b : Bufferevent} (hb : (p.net.connections i).bev = some b) :
  EntersOnce p (handleSuccRequest p i.val (some .self)) i
    (.findSuccessor (u32.fill p.ask.1.node.id b.input).1) b.input.length
  := by
  rw [handleSuccRequest]
  rw [withBuffer_of_bev hb]
  dsimp only
  generalize hq : (p.ask.2.setInput i (u32.fill p.ask.1.node.id b.input).2).emit _ = q
  have hlog : q.log = p.log ++ [.handled i.val (.findSuccessor
      (u32.fill p.ask.1.node.id b.input).1) b.input.length] := by
    rw [← hq]
    rfl
  let cb : FoundCb :=
    .successorFoundForRemote { connection := i.val, asker := q.net.serialAt i.val }
  have hacts : Acts (fun _ => True) true q
      (nodeFindSuccessor q (u32.fill p.ask.1.node.id b.input).1 cb).2 :=
    nodeFindSuccessor_acts (fun _ _ => trivial) (Acts.refl q) _ trivial
  obtain ⟨es, hes, hint⟩ := hacts.log
  refine ⟨es, ?_, hint⟩
  rw [hes, hlog, List.append_assoc, List.singleton_append]

theorem handlePredRequest_enters {b : Bufferevent} (hb : (p.net.connections i).bev = some b) :
  EntersOnce p (handlePredRequest p i.val (some .self)) i .predecessor b.input.length
  := by
  rw [handlePredRequest]
  rw [withBuffer_of_bev hb]
  exact ⟨[], rfl, by simp⟩

theorem handleAliveRequest_enters {b : Bufferevent} (hb : (p.net.connections i).bev = some b) :
  EntersOnce p (handleAliveRequest p i.val (some .self)) i .alive b.input.length
  := by
  rw [handleAliveRequest]
  rw [withBuffer_of_bev hb]
  exact ⟨[], rfl, by simp⟩

theorem handleNotifRequest_enters {b : Bufferevent} (hb : (p.net.connections i).bev = some b)
    (hpeer : b.peer ≠ 0) :
  let id := u32.fill p.ask.1.node.id b.input
  let port := u16.fill p.ask.1.node.port id.2
  EntersOnce p (handleNotifRequest p i.val (some .self)) i (.notify id.1 port.1) b.input.length
  := by
  have hne : ¬ (b.peer == 0) = true := by simpa using hpeer
  rw [handleNotifRequest]
  rw [withBuffer_of_bev hb]
  dsimp only
  rw [if_neg hne]
  exact ⟨[], rfl, by simp⟩

/-- The handler that the receiver has for a request. -/
theorem handleBody_type (p : NodeProcess) (connection : ℤ) (r : Request) (len : UInt32) :
  handleBody p connection r.type len
    = match r with
      | .findSuccessor _ => handleSuccRequest p connection (some .self)
      | .predecessor => handlePredRequest p connection (some .self)
      | .alive => handleAliveRequest p connection (some .self)
      | .notify _ _ => handleNotifRequest p connection (some .self)
  := by
  rw [handleBody]
  cases r with
  | findSuccessor id => exact if_pos rfl
  | predecessor => rw [if_neg (by decide), Request.type, if_pos rfl]
  | alive => rw [if_neg (by decide), if_neg (by decide), Request.type, if_pos rfl]
  | notify id port =>
    rw [Request.type, if_neg (by decide), if_neg (by decide), if_neg (by decide), if_pos rfl]

/-- The handler of a request is entered once, and decodes it if the whole body is there. -/
theorem handleBody_enters (r : Request) {b : Bufferevent}
    (hb : (p.net.connections i).bev = some b) (hpeer : b.peer ≠ 0) :
  ∃ r', EntersOnce p (handleBody p i.val r.type 0) i r' b.input.length
    ∧ (b.input = r.body → r' = r)
  := by
  rw [handleBody_type]
  cases r with
  | findSuccessor id =>
    refine ⟨_, handleSuccRequest_enters hb, ?_⟩
    intro hinput
    rw [hinput, Request.body, u32.fill_encode]
  | predecessor => exact ⟨_, handlePredRequest_enters hb, fun _ => rfl⟩
  | alive => exact ⟨_, handleAliveRequest_enters hb, fun _ => rfl⟩
  | notify id port =>
    refine ⟨_, handleNotifRequest_enters hb hpeer, ?_⟩
    intro hinput
    rw [hinput, Request.body]
    simp only [u32.fill_encode_append, u16.fill_encode]

/-! ### Requests -/

/-- What has arrived of a request when its header is there is the header, and a part of the
body. -/
theorem Request.exists_body {r : Request} {buf rest : List UInt8} (h : buf ++ rest = r.wire)
    (hlen : headerBytes ≤ buf.length) :
  ∃ body, buf = messageHeader r.type 0 ++ body ∧ body ++ rest = r.body
  := exists_part_of_append (r.wire_eq ▸ h) hlen

/-- When the header is there, the handler is entered with as much of the body as is there. -/
theorem readReady_enters (h : Accepted p i s) (r : Request) {buf rest : List UInt8}
    (hbuf : buf ++ rest = r.wire) (hlen : headerBytes ≤ buf.length) :
  ∃ r', EntersOnce p (readReady (p.setInput i buf) i) i r' (buf.length - headerBytes)
    ∧ (rest = [] → r' = r)
  := by
  obtain ⟨b, hconn, -, -, hpeer⟩ := h.bev
  obtain ⟨body, rfl, hbody⟩ := r.exists_body hbuf hlen
  generalize hq : p.setInput i (messageHeader r.type 0 ++ body) = q
  have hbev : (q.net.connections i).bev
      = some { b with input := messageHeader r.type 0 ++ body } := by
    rw [← hq]
    exact setInput_bev hconn.bev _
  have hready : readReady q i = handleBody (q.ask.2.setInput i body) i.val r.type 0 := by
    rw [← hq, readReady_setInput h.readCb, h.arg, runDataCb, hq]
    exact incomingReadCb_header hbev rfl
  have hbev' := setInput_bev (p := q.ask.2) (l := body) hbev
  obtain ⟨r', ⟨es, hes, hint⟩, hr⟩ := handleBody_enters r hbev' hpeer
  refine ⟨r', ⟨es, ?_, ?_⟩, ?_⟩
  · have hcount : (messageHeader r.type 0 ++ body).length - headerBytes = body.length := by
      rw [List.length_append, length_messageHeader, Nat.add_sub_cancel_left]
    rw [hready, hes, hcount, Process.setInput_log, Process.ask_log, ← hq, Process.setInput_log]
  · exact hint
  · intro hrest
    apply hr
    rw [← hbody, hrest, List.append_nil]

/-- The arrival of a request: its handler is called when the header is there, and what is not
there then arrives after that. -/
theorem deliver_request (h : Accepted p i s) (r : Request) {segments : List (List UInt8)}
    (hsegments : segments.flatten = r.wire) :
  ∃ buf rest, collect headerBytes [] segments = some (buf, rest) ∧ buf ++ rest.flatten = r.wire
    ∧ headerBytes ≤ buf.length
    ∧ p.deliver i s segments = (readReady (p.setInput i buf) i).deliver i s rest
  := by
  obtain ⟨b, hconn, hinput, hlow, -⟩ := h.bev
  have hwait : b.input.length < max b.low 1 := by simp [hinput, hlow]
  have hlow' : max b.low 1 = headerBytes := by rw [hlow]; rfl
  have hdeliver := deliver_of_connected hconn hwait segments
  rw [hlow', hinput] at hdeliver
  cases hcollect : collect headerBytes [] segments with
  | none =>
    have hfew := collect_eq_none (by decide) hcollect segments.length
    have hwire := r.length_wire
    rw [List.take_length, hsegments, List.nil_append] at hfew
    omega
  | some result =>
    obtain ⟨hlen, hall⟩ := collect_eq_some hcollect
    rw [hsegments, List.nil_append] at hall
    rw [hcollect] at hdeliver
    exact ⟨result.1, result.2, rfl, hall, hlen, hdeliver⟩

/-- The arrival of a request at once. -/
theorem deliver_wire (h : Accepted p i s) (r : Request) :
  p.deliver i s [r.wire] = readReady (p.setInput i r.wire) i
  := by
  have hflatten : [r.wire].flatten = r.wire := by simp
  obtain ⟨buf, rest, hcollect, -, -, hdeliver⟩ := deliver_request h r hflatten
  have hlen : headerBytes ≤ r.wire.length := by
    rw [r.length_wire]
    exact Nat.le_add_right _ _
  rw [collect, List.nil_append, if_pos hlen] at hcollect
  obtain ⟨rfl, rfl⟩ := Prod.mk.inj (Option.some.inj hcollect)
  rw [hdeliver, deliver_nil (by simp)]

theorem EntersOnce.handledRequests {q : NodeProcess} {r : Request} {n : ℕ}
    (h : EntersOnce p q i r n) :
  ∃ es, q.log = p.log ++ es ∧ handledRequests es = [((i.val : ℤ), r, n)]
  := by
  obtain ⟨es, hes, hint⟩ := h
  refine ⟨_, hes, ?_⟩
  rw [← List.singleton_append, handledRequests_append, handledRequests_eq_nil hint]
  rfl

/-- A request that is handled as it should be was not cut between its header and the end of
its body: the handler that was entered first was the only one, and had the whole body. -/
theorem Framed.noCut (h : Accepted p i s) (r : Request) {segments : List (List UInt8)}
    (hsegments : segments.flatten = r.wire) (hframed : Framed p i s r segments) :
  NoCut headerBytes r.wire.length [] segments
  := by
  obtain ⟨buf, rest, hcollect, hall, hlen, hdeliver⟩ := deliver_request h r hsegments
  obtain ⟨r', henters, -⟩ := readReady_enters h r hall hlen
  obtain ⟨es, hes, hhandled⟩ := henters.handledRequests
  obtain ⟨⟨es', n, hes', hrequests, hn⟩, -⟩ := hframed
  obtain ⟨es'', hes''⟩ := deliver_log (readReady (p.setInput i buf) i) i s rest
  rw [hdeliver, hes'', hes, List.append_assoc] at hes'
  have hsame := List.append_cancel_left hes'
  rw [← hsame, handledRequests_append, hhandled] at hrequests
  have hfirst := (List.cons.inj hrequests).1
  have hcount := (Prod.mk.inj (Prod.mk.inj hfirst).2).2
  have hwire := r.length_wire
  apply (le_length_collect_iff (by decide) hcollect).mp
  omega

/-- A request that is not cut between its header and the end of its body is handled as it
should be. -/
theorem framed_of_noCut (h : Accepted p i s) (r : Request) {segments : List (List UInt8)}
    (hsegments : segments.flatten = r.wire)
    (hcut : NoCut headerBytes r.wire.length [] segments) :
  Framed p i s r segments
  := by
  obtain ⟨buf, rest, hcollect, hall, hlen, hdeliver⟩ := deliver_request h r hsegments
  have hw := (le_length_collect_iff (by decide) hcollect).mpr hcut
  have hend := eq_nil_of_collect hcollect (by rw [hsegments, List.nil_append]; exact hw)
  rw [hsegments, List.nil_append] at hend
  obtain ⟨rfl, hrest⟩ := hend
  obtain ⟨r', henters, hr⟩ := readReady_enters h r hall hlen
  obtain rfl := hr (List.flatten_eq_nil_iff.mpr hrest)
  obtain ⟨es, hes, hhandled⟩ := henters.handledRequests
  have hwire := r'.length_wire
  rw [deliver_nil hrest] at hdeliver
  refine ⟨⟨es, _, ?_, hhandled, ?_⟩, ?_⟩
  · rw [hdeliver, hes]
  · omega
  · rw [hdeliver, deliver_wire h r']

/-- A request that is cut into segments is handled as it should be exactly when no segment
ends between its header and the end of its body. -/
theorem framed_iff (h : Accepted p i s) (r : Request) {segments : List (List UInt8)}
    (hsegments : segments.flatten = r.wire) :
  Framed p i s r segments ↔ NoCut headerBytes r.wire.length [] segments
  := ⟨fun hframed => hframed.noCut h r hsegments, framed_of_noCut h r hsegments⟩

end

/-- A node that has just been created, and has accepted a connection. -/
def listening : NodeProcess :=
  (Process.boot .blank fun _ => .fine).occur (.accept 1)

theorem accepted_listening :
  Accepted listening 0 0
  := by
  have hpeer : (1 : UInt32) ≠ 0 := by decide
  exact accepted_of_accept rfl (by decide +kernel) rfl rfl hpeer

/-- A request whose header and body arrive in two segments. -/
def headerThenBody (r : Request) : List (List UInt8) :=
  [r.wire.take headerBytes, r.wire.drop headerBytes]

theorem flatten_headerThenBody (r : Request) :
  (headerThenBody r).flatten = r.wire
  := by
  simp [headerThenBody]

theorem framed_iff_headerThenBody :
  Framed listening 0 0 (.findSuccessor 5) (headerThenBody (.findSuccessor 5))
    ↔ NoCut headerBytes (Request.findSuccessor 5).wire.length []
      (headerThenBody (.findSuccessor 5))
  := framed_iff accepted_listening _ (flatten_headerThenBody _)

/-- A lookup whose header arrives first is handled before its identifier is there. -/
theorem request_handled_without_body :
  ¬ ∀ (p : NodeProcess) (i : Fin maxOpenConnections) (s : ℕ) (r : Request)
    (segments : List (List UInt8)), Accepted p i s → segments.flatten = r.wire →
    Framed p i s r segments
  := by
  intro h
  have hframed := h listening 0 0 (.findSuccessor 5) (headerThenBody (.findSuccessor 5))
    accepted_listening (flatten_headerThenBody _)
  have hcut := hframed.noCut accepted_listening _ (flatten_headerThenBody _) 1
  revert hcut
  decide
