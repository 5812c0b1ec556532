import LibDht.Net.Framing
import LibDht.Net.Serving

/-!
# Messages for the application

A message for the application is handed over once its body has arrived whole. When the body
was there with the header, the argument that carries the message is freed at once, and no
callback of the connection knows it. When the body comes later, the argument has become the
one of the connection, and it is freed with the callbacks that use it left in place: the
next call of a callback of the connection uses what has been freed.
-/

/-- The bytes of a message for the application. -/
def nodeMsgWire (len : UInt32) (body : List UInt8) : List UInt8 :=
  messageHeader msgTNodeMsg len ++ body

/-- No callback is called with an argument that is freed. -/
def NotFreed (i : Fin maxOpenConnections) (s : ℕ) (p : NodeProcess) (e : ConnectionEvent)
    (_after : List ConnectionEvent) : Prop :=
  p.net.serialAt i.val = some s → e.calledWith p i ≠ some .freed

/-- A message that arrives in segments is handed over once, with its body there. And whatever
happens on its connection, then and later, no callback is called with an argument that is
freed. -/
structure DeliveredOnce (p : NodeProcess) (i : Fin maxOpenConnections) (s : ℕ) (len : UInt32)
    (segments : List (List UInt8)) (further : List ConnectionEvent) : Prop where
  once : ∃ es n, (p.serve i s (segments.map .data)).log = p.log ++ es
    ∧ nodeMessages es = [((i.val : ℤ), msgTNodeMsg, len, n)] ∧ len.toNat ≤ n
  notFreed : Throughout (NotFreed i s) p i s (segments.map .data ++ further)

/-- Nothing comes on a connection that leads to a call: only data, and less than `t` bytes. -/
def Silent (t : ℕ) (events : List ConnectionEvent) : Prop :=
  ∃ segments : List (List UInt8), events = segments.map .data ∧ segments.flatten.length < t

/-- When the slot waits for the body of a message and the data completes it, nothing comes after
it that leads to a call: with what is left in the buffer, less than another body comes, or
nothing. -/
def LateIsLast (i : Fin maxOpenConnections) (s : ℕ) (p : NodeProcess) (e : ConnectionEvent)
    (after : List ConnectionEvent) : Prop :=
  ∀ b type len bytes, e = .data bytes → Connected p i s b →
    (p.net.connections i).upperCbArg = some (.msg type len) →
    len.toNat ≤ (b.input ++ bytes).length →
      Silent (max 1 (len.toNat - ((b.input ++ bytes).drop len.toNat).length)) after

section

variable {p : NodeProcess} {i : Fin maxOpenConnections} {s : ℕ}

/-! ### Data that arrives -/

theorem serve_of_serialAt (hserial : p.net.serialAt i.val = some s) (e : ConnectionEvent) :
  p.serve i s [e] = p.occurDraining (e.occurrence i)
  := by
  rw [Process.serve, List.foldl_cons, List.foldl_nil, if_pos hserial]

/-- Nothing is handed over, so nothing is drained. -/
theorem occurDraining_of_log {o : Occurrence} (h : (p.occur o).log = p.log) :
  p.occurDraining o = p.occur o
  := by
  have hnil : (p.occur o).log = p.log ++ [] := by rw [h, List.append_nil]
  rw [occurDraining_eq hnil, List.foldl_nil]

/-- Empty segments bring nothing. -/
theorem serve_nil_segments {segments : List (List UInt8)} (h : ∀ l ∈ segments, l = []) :
  p.serve i s (segments.map .data) = p
  := by
  induction segments with
  | nil => rfl
  | cons l ls ih =>
    obtain rfl := h l List.mem_cons_self
    have hoccur : p.occur (.data i []) = p := by
      rw [Process.occur, Occurrence.handle, arrive_nil, ite_self]
    have hstep : p.serve i s [.data []] = p := by
      rw [Process.serve, List.foldl_cons, List.foldl_nil, ConnectionEvent.occurrence,
        occurDraining_of_log (by rw [hoccur]), hoccur, ite_self]
    rw [List.map_cons, serve_cons, hstep]
    exact ih fun l' hl' => h l' (List.mem_cons_of_mem _ hl')

section

variable {b : Bufferevent}

theorem occur_data (h : Connected p i s b) (hwait : b.input.length < max b.low 1)
    (bytes : List UInt8) :
  p.occur (.data i bytes)
    = if max b.low 1 ≤ (b.input ++ bytes).length then
        readReady (p.setInput i (b.input ++ bytes)) i
      else p.setInput i (b.input ++ bytes)
  := by
  rw [Process.occur_of_running h.running, Occurrence.handle, arrive_of_connected h hwait]

/-- Segments that are too few are collected. -/
theorem serve_few_segments (h : Connected p i s b) {segments : List (List UInt8)}
    (hfew : (b.input ++ segments.flatten).length < max b.low 1) :
  p.serve i s (segments.map .data) = p.setInput i (b.input ++ segments.flatten)
  := by
  induction segments generalizing p b with
  | nil => simp [Process.serve, setInput_self h.bev]
  | cons l ls ih =>
    rw [List.flatten_cons, ← List.append_assoc] at hfew ⊢
    have hlen : (b.input ++ l).length ≤ (b.input ++ l ++ ls.flatten).length := by simp
    have hwait : b.input.length < max b.low 1 := by
      rw [List.length_append] at hlen
      omega
    have hoccur : p.occur (.data i l) = p.setInput i (b.input ++ l) := by
      rw [occur_data h hwait, if_neg (by omega)]
    have hstep : p.serve i s [.data l] = p.setInput i (b.input ++ l) := by
      have hlog : (p.occur (.data i l)).log = p.log := by rw [hoccur, Process.setInput_log]
      rw [serve_of_serialAt h.serialAt, ConnectionEvent.occurrence, occurDraining_of_log hlog,
        hoccur]
    rw [List.map_cons, serve_cons, hstep, ih (h.setInput _) hfew, setInput_setInput]

/-- Data for a connection that is not there, or on which nothing arrives. -/
theorem occur_data_of_not_connected {bytes : List UInt8} (hserial : p.net.serialAt i.val = some s)
    (h : ¬ ∃ b, Connected p i s b) :
  p.occur (.data i bytes) = p
  := by
  rw [NetServer.serialAt_coe, NodeNet.serialIn] at hserial
  obtain ⟨b, hb, hs⟩ := Option.map_eq_some_iff.mp hserial
  rw [Process.occur]
  split_ifs with hcrashed
  · rfl
  · apply arrive_disabled
    rw [NodeNet.isEnabled_of_bev hb]
    by_contra henabled
    exact h ⟨b, Bool.eq_false_of_not_eq_true hcrashed, hb, hs, Bool.eq_true_of_not_eq_false henabled⟩

theorem calledWith_event (h : Connected p i s b) (what : UInt16) :
  (ConnectionEvent.event what).calledWith p i
    = (p.net.connections i).evtCb.bind fun _ => (p.net.connections i).upperCbArg
  := by
  have henabled : p.net.isEnabled i = true := (NodeNet.isEnabled_of_bev h.bev).trans h.enabled
  rw [ConnectionEvent.calledWith, h.running, henabled, if_neg (by simp),
    netConnectionEventCb_coe]
  cases (p.net.connections i).evtCb <;> rfl

end

/-! ### The header of a message -/

/-- The slot `i` waits for the body of a message of the length `len`, and `acc` has arrived. -/
structure OnMessage (p : NodeProcess) (i : Fin maxOpenConnections) (s : ℕ) (len : UInt32)
    (arg : CbArg) (acc : List UInt8) : Prop where
  bev : ∃ b, Connected p i s b ∧ b.input = acc ∧ b.low = len.toNat
  readCb : (p.net.connections i).readCb = some .handleNodeMessage
  evtCb : (p.net.connections i).evtCb = some .incomingEventMsgCb
  arg : (p.net.connections i).upperCbArg = some arg

/-- The header of a message and what has come of its body are read. -/
theorem incomingReadCb_message {b : Bufferevent} {len : UInt32} {part : List UInt8}
    (hb : (p.net.connections i).bev = some b)
    (hparse : nodeParseMessageHeader p.ask.1.byte b.input = ((msgTNodeMsg, len), part)) :
  incomingReadCb p i.val (some .self)
    = let q := p.ask.2.setInput i part
      if part.length < len.toNat then
        let q := deferBody q i.val msgTNodeMsg len
        { q with net := q.net.modifyBev i fun b => { b with low := len.toNat } }
      else handleNodeMessage q i.val (some (.msg msgTNodeMsg len))
  := by
  rw [incomingReadCb]
  simp only [withBuffer_of_bev hb, hparse]
  rfl

/-- The whole body is there: the message is handed over. -/
theorem incomingReadCb_whole {b : Bufferevent} {len : UInt32} {body : List UInt8}
    (hb : (p.net.connections i).bev = some b)
    (hparse : nodeParseMessageHeader p.ask.1.byte b.input = ((msgTNodeMsg, len), body))
    (hlen : len.toNat ≤ body.length) :
  (incomingReadCb p i.val (some .self)).log = p.log
    ++ [.nodeMessage p.node.msgCb p.node.msgCbArg i.val msgTNodeMsg len body.length]
  := by
  rw [incomingReadCb_message hb hparse]
  dsimp only
  rw [if_neg (not_lt.mpr hlen), handleNodeMessage]
  have hbev := setInput_bev (p := p.ask.2) (l := body) hb
  simp [netConnectionGetBuffer, hbev]

/-- The three setters that are called for a message to the application. -/
theorem deferBody_message (p : NodeProcess) (i : Fin maxOpenConnections) (len : UInt32) :
  deferBody p i.val msgTNodeMsg len
    = { p with
        net := p.net.modify i fun c => { c with
          readCb := some .handleNodeMessage
          evtCb := some .incomingEventMsgCb
          upperCbArg := some (.msg msgTNodeMsg len) } }
  := by
  rw [deferBody]
  dsimp only
  rw [if_neg (by decide), if_neg (by decide), if_neg (by decide), if_neg (by decide),
    if_pos rfl]
  simp [netConnectionSetReadCb, netConnectionSetEventCb, netConnectionSetCbArg, netConnectionSet,
    NetServer.modify]

/-- The body is not there: the connection waits for it, with the message for its argument. -/
theorem incomingReadCb_part {b : Bufferevent} {len : UInt32} {part : List UInt8}
    (h : Connected p i s b)
    (hparse : nodeParseMessageHeader p.ask.1.byte b.input = ((msgTNodeMsg, len), part))
    (hlen : part.length < len.toNat) :
  let q := incomingReadCb p i.val (some .self)
  q.log = p.log ∧ OnMessage q i s len (.msg msgTNodeMsg len) part
  := by
  dsimp only
  rw [incomingReadCb_message h.bev hparse]
  dsimp only
  rw [if_pos hlen]
  have hbev := setInput_bev (p := p.ask.2) (l := part) h.bev
  generalize hq : p.ask.2.setInput i part = q at hbev
  have hrunning : q.net.crashed = false := by
    rw [← hq]
    exact h.running
  have hlog : q.log = p.log := by
    rw [← hq]
    rfl
  rw [deferBody_message]
  refine ⟨hlog, ⟨{ b with input := part, low := len.toNat },
    ⟨hrunning, ?_, h.serial, h.enabled⟩, rfl, rfl⟩, ?_, ?_, ?_⟩
  · simp [NetServer.modifyBev, NetServer.modify, hbev]
  · simp [NetServer.modifyBev, NetServer.modify]
  · simp [NetServer.modifyBev, NetServer.modify]
  · simp [NetServer.modifyBev, NetServer.modify]

/-! ### The body of a message -/

/-- The rest of the body comes: the message is handed over and its body drained, and the
argument of the connection is freed. -/
theorem OnMessage.handsOver {len : UInt32} {acc bytes : List UInt8}
    (h : OnMessage p i s len (.msg msgTNodeMsg len) acc) (hacc : acc.length < len.toNat)
    (hmany : len.toNat ≤ (acc ++ bytes).length) :
  let q := p.serve i s [.data bytes]
  q.log = p.log
      ++ [.nodeMessage p.node.msgCb p.node.msgCbArg i.val msgTNodeMsg len (acc ++ bytes).length]
    ∧ OnMessage q i s len .freed ((acc ++ bytes).drop len.toNat)
  := by
  obtain ⟨⟨b, hconn, rfl, hlow⟩, hread, hevt, harg⟩ := h
  have hmax : max b.low 1 = len.toNat := by omega
  have hbev := setInput_bev (l := b.input ++ bytes) hconn.bev
  have hoccur : p.occur (.data i bytes) = handleNodeMessage (p.setInput i (b.input ++ bytes)) i.val
      (some (.msg msgTNodeMsg len)) := by
    rw [occur_data hconn (by omega), if_pos (by omega), readReady_setInput hread, harg, runDataCb]
  have hlog : (p.occur (.data i bytes)).log
      = p.log ++ [.nodeMessage p.node.msgCb p.node.msgCbArg i.val msgTNodeMsg len
        (b.input ++ bytes).length] := by
    rw [hoccur, handleNodeMessage]
    simp [netConnectionGetBuffer, hbev]
  dsimp only
  rw [serve_of_serialAt hconn.serialAt, ConnectionEvent.occurrence, occurDraining_eq hlog,
    foldl_drainBody_log]
  refine ⟨hlog, ⟨{ b with input := (b.input ++ bytes).drop len.toNat }, ⟨?_, ?_, hconn.serial,
    hconn.enabled⟩, rfl, hlow⟩, ?_, ?_, ?_⟩
  all_goals rw [hoccur, handleNodeMessage, List.foldl_cons, List.foldl_nil, drainBody, netSlot_coe]
  · simpa [Process.setInput, netConnectionSet, NetServer.modifyBev, NetServer.modify]
      using hconn.running
  · simp [netConnectionSet, NetServer.modifyBev, NetServer.modify, hbev]
  · simp [Process.setInput, netConnectionSet, NetServer.modifyBev, NetServer.modify,
      NodeNet.dangle, harg, hread]
  · simp [Process.setInput, netConnectionSet, NetServer.modifyBev, NetServer.modify,
      NodeNet.dangle, harg, hevt]
  · simp [Process.setInput, netConnectionSet, NetServer.modifyBev, NetServer.modify,
      NodeNet.dangle, harg]

theorem OnMessage.setInput {len : UInt32} {arg : CbArg} {acc : List UInt8}
    (h : OnMessage p i s len arg acc) (l : List UInt8) :
  OnMessage (p.setInput i l) i s len arg l
  := by
  obtain ⟨⟨b, hconn, -, hlow⟩, hread, hevt, harg⟩ := h
  refine ⟨⟨_, hconn.setInput l, rfl, hlow⟩, ?_, ?_, ?_⟩
  · simpa [Process.setInput_connections_self] using hread
  · simpa [Process.setInput_connections_self] using hevt
  · simpa [Process.setInput_connections_self] using harg

/-- What is missing of the body comes in segments: they are collected, and the message is
handed over with the one that completes it. -/
theorem OnMessage.exists_handOver {len : UInt32} {part : List UInt8}
    (h : OnMessage p i s len (.msg msgTNodeMsg len) part) (hpart : part.length < len.toNat)
    {segments : List (List UInt8)} (hall : (part ++ segments.flatten).length = len.toNat) :
  ∃ before l rest, segments = before ++ l :: rest ∧ (∀ l' ∈ rest, l' = [])
    ∧ (p.serve i s (before.map .data)).log = p.log
    ∧ (∃ cb arg, (p.serve i s ((before ++ [l]).map .data)).log
      = p.log ++ [.nodeMessage cb arg i.val msgTNodeMsg len len.toNat])
    ∧ OnMessage (p.serve i s ((before ++ [l]).map .data)) i s len .freed []
  := by
  cases hcollect : collect len.toNat part segments with
  | none =>
    have hfew := collect_eq_none hpart hcollect segments.length
    rw [List.take_length] at hfew
    omega
  | some result =>
    obtain ⟨buf, rest⟩ := result
    have hlen := (collect_eq_some hcollect).1
    obtain ⟨hbuf, hrest⟩ := eq_nil_of_collect hcollect (hall ▸ hlen)
    obtain ⟨before, l, rfl, hfew, hsplit⟩ := exists_split_of_collect hpart hcollect
    have hbuflen : (part ++ before.flatten ++ l).length = len.toNat := by
      rw [← hsplit, hbuf]
      exact hall
    have hwaiting := h
    obtain ⟨⟨b, hconn, rfl, hlow⟩, -, -, -⟩ := h
    have hbefore : p.serve i s (before.map .data) = p.setInput i (b.input ++ before.flatten) := by
      apply serve_few_segments hconn
      omega
    have hwait := hwaiting.setInput (b.input ++ before.flatten)
    obtain ⟨hlog, hspent⟩ := hwait.handsOver hfew hbuflen.ge
    rw [← hbefore, ← serve_append, hbuflen] at hlog
    rw [← hbefore, ← serve_append, List.drop_of_length_le hbuflen.le] at hspent
    refine ⟨before, l, rest, rfl, hrest, ?_, ?_, ?_⟩
    · rw [hbefore, Process.setInput_log]
    · rw [hbefore, Process.setInput_log, ← hbefore] at hlog
      rw [List.map_append, List.map_singleton]
      exact ⟨_, _, hlog⟩
    · rw [List.map_append, List.map_singleton]
      exact hspent

/-! ### Messages in segments -/

/-- The segment that completes the header leads to the read callback. -/
theorem Accepted.serve_header (h : Accepted p i s) {before : List (List UInt8)} {l : List UInt8}
    (hfew : before.flatten.length < headerBytes)
    (hmany : headerBytes ≤ (before.flatten ++ l).length) :
  let q := incomingReadCb (p.setInput i (before.flatten ++ l)) i.val (some .self)
  (p.serve i s (before.map .data)).log = p.log
    ∧ ∀ es, q.log = p.log ++ es → p.serve i s ((before ++ [l]).map .data) = es.foldl drainBody q
  := by
  obtain ⟨b, hconn, hinput, hlow, -⟩ := h.bev
  have hmax : max b.low 1 = headerBytes := by rw [hlow]; rfl
  have hbefore : p.serve i s (before.map .data) = p.setInput i before.flatten := by
    rw [serve_few_segments hconn, hinput, List.nil_append]
    rw [hinput, List.nil_append, hmax]
    exact hfew
  have hconn' := hconn.setInput before.flatten
  constructor
  · rw [hbefore, Process.setInput_log]
  · intro es hes
    have hoccur : (p.setInput i before.flatten).occur (.data i l)
        = incomingReadCb (p.setInput i (before.flatten ++ l)) i.val (some .self) := by
      rw [occur_data hconn', hmax, if_pos hmany, setInput_setInput,
        readReady_setInput h.readCb, h.arg, runDataCb]
      rw [hmax]
      exact hfew
    rw [List.map_append, serve_append, hbefore, List.map_singleton,
      serve_of_serialAt hconn'.serialAt, ConnectionEvent.occurrence, occurDraining_eq, hoccur]
    rw [hoccur, hes, Process.setInput_log]

/-- A message that arrives in segments is handed over once, with the segment that completes
it. When it was cut behind the header, the argument of the connection is freed. -/
theorem exists_handOver (h : Accepted p i s) {len : UInt32} {body : List UInt8}
    (hbody : body.length = len.toNat) {segments : List (List UInt8)}
    (hsegments : segments.flatten = nodeMsgWire len body) :
  ∃ before l rest n, segments = before ++ l :: rest ∧ (∀ l' ∈ rest, l' = [])
    ∧ (p.serve i s (before.map .data)).log = p.log
    ∧ (∃ cb arg, (p.serve i s ((before ++ [l]).map .data)).log
      = p.log ++ [.nodeMessage cb arg i.val msgTNodeMsg len n])
    ∧ len.toNat ≤ n
    ∧ (NoCut headerBytes (headerBytes + len.toNat) [] segments
      ∨ 0 < len.toNat ∧ OnMessage (p.serve i s ((before ++ [l]).map .data)) i s len .freed [])
  := by
  have hwire : (nodeMsgWire len body).length = headerBytes + len.toNat := by
    rw [nodeMsgWire, List.length_append, length_messageHeader, hbody]
  cases hcollect : collect headerBytes [] segments with
  | none =>
    have hfew := collect_eq_none (by decide) hcollect segments.length
    rw [List.take_length, hsegments, List.nil_append] at hfew
    omega
  | some result =>
    obtain ⟨buf, rest⟩ := result
    obtain ⟨hlen, hall⟩ := collect_eq_some hcollect
    have hcut := le_length_collect_iff (w := headerBytes + len.toNat) (by decide) hcollect
    obtain ⟨before, l, rfl, hfew, hbuf⟩ := exists_split_of_collect (by decide) hcollect
    rw [List.nil_append] at hbuf hfew hall
    rw [hsegments] at hall
    obtain ⟨part, hpart, hrest⟩ := exists_part_of_append hall hlen
    obtain ⟨hbefore, hserve⟩ := h.serve_header hfew (hbuf ▸ hlen)
    obtain ⟨b, hconn, -⟩ := h.bev
    have hconn' := hconn.setInput buf
    rw [← hbuf] at hserve
    generalize hq : p.setInput i buf = q at hserve hconn'
    have hlog : q.log = p.log := by rw [← hq, Process.setInput_log]
    have hcount : buf.length = headerBytes + part.length := by
      rw [hpart, List.length_append, length_messageHeader]
    have hcount' := congrArg List.length hrest
    rw [List.length_append] at hcount'
    have hparse : ∀ old, nodeParseMessageHeader old buf = ((msgTNodeMsg, len), part) := by
      intro old
      rw [hpart]
      apply nodeParseMessageHeader_append
    rcases lt_or_ge part.length len.toNat with hpartLen | hpartLen
    · -- the body is cut: what is left of it comes in some later segment
      obtain ⟨hread, hwait⟩ := incomingReadCb_part hconn' (hparse _) hpartLen
      rw [hlog] at hread
      have hheader := hserve [] (by rw [hread, List.append_nil])
      rw [List.foldl_nil] at hheader
      have hmissing : (part ++ rest.flatten).length = len.toNat := by rw [hrest, hbody]
      obtain ⟨before', l', rest', rfl, hrest', hbefore', ⟨cb, arg, hlog'⟩, hspent⟩ :=
        hwait.exists_handOver hpartLen hmissing
      have hserve' : ∀ segments : List (List UInt8),
          p.serve i s ((before ++ l :: segments).map .data)
            = (incomingReadCb q i.val (some .self)).serve i s (segments.map .data) := by
        intro segments
        rw [List.append_cons, List.map_append, serve_append, hheader]
      refine ⟨before ++ l :: before', l', rest', len.toNat, by simp, hrest', ?_, ?_, le_rfl,
        Or.inr ⟨by omega, ?_⟩⟩
      · rw [hserve', hbefore', hread]
      · refine ⟨cb, arg, ?_⟩
        rw [List.append_assoc, List.cons_append, hserve', hlog', hread]
      · rw [List.append_assoc, List.cons_append, hserve']
        exact hspent
    · have hread := incomingReadCb_whole hconn'.bev (hparse _) hpartLen
      rw [hlog] at hread
      refine ⟨before, l, rest, part.length, rfl, ?_, hbefore, ?_, hpartLen, Or.inl ?_⟩
      · apply List.flatten_eq_nil_iff.mp
        apply List.length_eq_zero_iff.mp
        omega
      · rw [hserve _ hread, foldl_drainBody_log]
        exact ⟨_, _, hread⟩
      · apply hcut.mp
        omega

/-! ### After the message -/

theorem silent_nil {t : ℕ} (ht : 0 < t) :
  Silent t []
  := ⟨[], rfl, ht⟩

theorem not_silent_event {t : ℕ} {what : UInt16} {events : List ConnectionEvent} :
  ¬ Silent t (.event what :: events)
  := by
  rintro ⟨segments, hsegments, -⟩
  cases segments with
  | nil => cases hsegments
  | cons l ls => cases hsegments

theorem silent_data {t : ℕ} {bytes : List UInt8} {events : List ConnectionEvent} :
  Silent t (.data bytes :: events) ↔ Silent (t - bytes.length) events
  := by
  constructor
  · rintro ⟨segments, hsegments, hlen⟩
    cases segments with
    | nil => cases hsegments
    | cons l ls =>
      obtain ⟨hbytes, rfl⟩ := List.cons.inj hsegments
      cases hbytes
      rw [List.flatten_cons, List.length_append] at hlen
      exact ⟨ls, rfl, by omega⟩
  · rintro ⟨segments, rfl, hlen⟩
    refine ⟨bytes :: segments, rfl, ?_⟩
    rw [List.flatten_cons, List.length_append]
    omega

/-- Data that is too little leads to no call. -/
theorem calledWith_few {b : Bufferevent} (h : Connected p i s b) {bytes : List UInt8}
    (hfew : (b.input ++ bytes).length < b.low) :
  (ConnectionEvent.data bytes).calledWith p i = none
  := by
  rw [ConnectionEvent.calledWith, h.bev, Option.bind_some, if_pos]
  simpa using Or.inr hfew

/-- Enough data leads to a call, and so does every event. -/
theorem OnMessage.called {len : UInt32} {arg : CbArg} {acc : List UInt8}
    (h : OnMessage p i s len arg acc) {e : ConnectionEvent}
    (he : ∀ bytes, e = .data bytes → bytes ≠ [] ∧ len.toNat ≤ (acc ++ bytes).length) :
  e.calledWith p i = some arg
  := by
  obtain ⟨⟨b, hconn, rfl, hlow⟩, hread, hevt, harg⟩ := h
  cases e with
  | event what => rw [calledWith_event hconn, hevt, harg, Option.bind_some]
  | data bytes =>
    obtain ⟨hbytes, hmany⟩ := he bytes rfl
    rw [ConnectionEvent.calledWith, hconn.bev, Option.bind_some, if_neg, netConnectionReadCb_coe,
      hread, harg]
    · rfl
    · simpa [hconn.running, hconn.enabled, hbytes, hlow] using hmany

/-- Little data is collected. -/
theorem OnMessage.serve_few {len : UInt32} {arg : CbArg} {acc bytes : List UInt8}
    (h : OnMessage p i s len arg acc) (hfew : (acc ++ bytes).length < len.toNat) :
  OnMessage (p.serve i s [.data bytes]) i s len arg (acc ++ bytes)
  := by
  have hwait := h
  obtain ⟨⟨b, hconn, rfl, hlow⟩, -, -, -⟩ := h
  have hstep : p.serve i s ([bytes].map .data) = p.setInput i (b.input ++ [bytes].flatten) := by
    apply serve_few_segments hconn
    rw [List.flatten_singleton]
    omega
  rw [List.flatten_singleton, List.map_singleton] at hstep
  rw [hstep]
  exact hwait.setInput _

theorem OnMessage.serve_nil {len : UInt32} {arg : CbArg} {acc : List UInt8}
    (h : OnMessage p i s len arg acc) :
  OnMessage (p.serve i s [.data []]) i s len arg (acc ++ [])
  := by
  have hserve : p.serve i s ([[]].map .data) = p := by
    have hall : ∀ l ∈ [([] : List UInt8)], l = [] := fun l hl => List.mem_singleton.mp hl
    exact serve_nil_segments hall
  rw [List.map_singleton] at hserve
  rwa [hserve, List.append_nil]

/-- What leads to no call on a connection whose argument is freed leaves it so. -/
theorem OnMessage.serve_notFreed {len : UInt32} {acc : List UInt8}
    (h : OnMessage p i s len .freed acc) {e : ConnectionEvent} {after : List ConnectionEvent}
    (hnot : NotFreed i s p e after) :
  ∃ bytes, e = .data bytes ∧ (bytes = [] ∨ (acc ++ bytes).length < len.toNat)
    ∧ OnMessage (p.serve i s [e]) i s len .freed (acc ++ bytes)
  := by
  obtain ⟨b, hconn, -⟩ := h.bev
  have hcall := hnot hconn.serialAt
  cases e with
  | event what => exact absurd (h.called (fun bytes hdata => by cases hdata)) hcall
  | data bytes =>
    by_cases hnil : bytes = []
    · subst hnil
      exact ⟨[], rfl, Or.inl rfl, h.serve_nil⟩
    · by_cases hmany : len.toNat ≤ (acc ++ bytes).length
      · exfalso
        apply hcall
        apply h.called
        intro bytes' hdata
        cases hdata
        exact ⟨hnil, hmany⟩
      · have hfew : (acc ++ bytes).length < len.toNat := by omega
        exact ⟨bytes, rfl, Or.inr hfew, h.serve_few hfew⟩

/-- Nothing is called by data that is too little. -/
theorem OnMessage.notFreed_few {len : UInt32} {arg : CbArg} {acc bytes : List UInt8}
    (h : OnMessage p i s len arg acc) (hbytes : bytes = [] ∨ (acc ++ bytes).length < len.toNat)
    (after : List ConnectionEvent) :
  NotFreed i s p (.data bytes) after
  := by
  obtain ⟨b, hconn, rfl, hlow⟩ := h.bev
  have hnone : (ConnectionEvent.data bytes).calledWith p i = none := by
    rcases hbytes with rfl | hfew
    · simp [ConnectionEvent.calledWith, hconn.bev]
    · apply calledWith_few hconn
      rwa [hlow]
  intro _
  rw [hnone]
  exact (Option.some_ne_none _).symm

/-- The freed argument of a connection is not used exactly when nothing comes that leads to a
call. -/
theorem OnMessage.notFreed_iff {len : UInt32} {acc : List UInt8}
    (h : OnMessage p i s len .freed acc) (events : List ConnectionEvent) :
  Throughout (NotFreed i s) p i s events ↔ Silent (max 1 (len.toNat - acc.length)) events
  := by
  induction events generalizing p acc with
  | nil => exact iff_of_true throughout_nil (silent_nil (by omega))
  | cons e events ih =>
    have hless : ∀ bytes : List UInt8, bytes = [] ∨ (acc ++ bytes).length < len.toNat →
        max 1 (len.toNat - acc.length) - bytes.length
          = max 1 (len.toNat - (acc ++ bytes).length) := by
      rintro bytes (rfl | hfew)
      · rw [List.append_nil, List.length_nil, Nat.sub_zero]
      · rw [List.length_append] at hfew ⊢
        omega
    rw [throughout_cons]
    constructor
    · rintro ⟨hfirst, hrest⟩
      obtain ⟨bytes, rfl, hbytes, hnext⟩ := h.serve_notFreed hfirst
      rw [silent_data, hless bytes hbytes]
      exact (ih hnext).mp hrest
    · intro hsilent
      cases e with
      | event what => exact absurd hsilent not_silent_event
      | data bytes =>
        rw [silent_data] at hsilent
        have hbytes : bytes = [] ∨ (acc ++ bytes).length < len.toNat := by
          obtain ⟨segments, -, hlen⟩ := hsilent
          rw [List.length_append, ← List.length_eq_zero_iff]
          omega
        have hfirst := h.notFreed_few hbytes events
        obtain ⟨bytes', hdata, -, hnext⟩ := h.serve_notFreed hfirst
        cases hdata
        rw [hless bytes hbytes] at hsilent
        exact ⟨hfirst, (ih hnext).mpr hsilent⟩

/-! ### What an accepted connection comes to -/

/-- A connection that a node accepted is gone, or its argument is the node, or the message whose
body it waits for. -/
inductive Stage (p : NodeProcess) (i : Fin maxOpenConnections) (s : ℕ) : Prop where
  | gone (h : p.net.crashed = true ∨ p.net.serialAt i.val ≠ some s)
  | self (h : (p.net.connections i).upperCbArg = some .self)
  | waits (len : UInt32) (acc : List UInt8) (h : OnMessage p i s len (.msg msgTNodeMsg len) acc)
      (hacc : acc.length < len.toNat)

theorem stage_of_bev (h : (p.net.connections i).bev = none) :
  Stage p i s
  := by
  apply Stage.gone
  right
  rw [NetServer.serialAt_coe, NodeNet.serialIn, h]
  exact (Option.some_ne_none s).symm

theorem SelfOrClosed.stage (h : SelfOrClosed p i) :
  Stage p i s
  := by
  rcases h with hnone | hself
  · exact stage_of_bev hnone
  · exact .self hself

theorem Accepted.stage (h : Accepted p i s) :
  Stage p i s
  := .self h.arg

/-- An argument in use is not freed. -/
theorem Stage.notFreed (h : Stage p i s) (e : ConnectionEvent) (after : List ConnectionEvent) :
  NotFreed i s p e after
  := by
  intro hserial hcall
  obtain ⟨hrunning, -, harg⟩ := ConnectionEvent.calledWith_eq_some hcall
  cases h with
  | gone h =>
    rcases h with hcrashed | hother
    · rw [hrunning] at hcrashed
      cases hcrashed
    · exact hother hserial
  | self h =>
    rw [h] at harg
    cases harg
  | waits len acc h hacc =>
    rw [h.arg] at harg
    cases harg

/-- What is read on a connection whose argument is the node: the argument stays, unless the body
of a message for the application is missing, and then nothing is handed over. -/
theorem readReady_stage {b : Bufferevent} (h : Connected p i s b)
    (hself : (p.net.connections i).upperCbArg = some .self) :
  SelfOrClosed (readReady p i) i
    ∨ ∃ len acc, acc.length < len.toNat ∧ (readReady p i).log = p.log
      ∧ OnMessage (readReady p i) i s len (.msg msgTNodeMsg len) acc
  := by
  have harg : ArgSelf p i := ⟨by rw [h.bev]; exact Option.some_ne_none b, hself⟩
  rw [readReady, netConnectionReadCb_coe, hself]
  cases hcb : (p.net.connections i).readCb with
  | none => exact Or.inl harg.selfOrClosed
  | some cb =>
    rw [Option.map_some]
    by_cases hincoming : cb = .incomingReadCb
    · subst hincoming
      rw [runDataCb]
      obtain ⟨⟨⟨type, len⟩, rest⟩, hparse⟩ :
          ∃ r, nodeParseMessageHeader p.ask.1.byte b.input = r := ⟨_, rfl⟩
      by_cases hmessage : type = msgTNodeMsg ∧ rest.length < len.toNat
      · obtain ⟨rfl, hlen⟩ := hmessage
        obtain ⟨hlog, hwait⟩ := incomingReadCb_part h hparse hlen
        exact Or.inr ⟨len, rest, hlen, hlog, hwait⟩
      · left
        apply incomingReadCb_selfOrClosed harg h.bev hparse
        intro htype
        rw [← not_lt]
        exact fun hlen => hmessage ⟨htype, hlen⟩
    · exact Or.inl (runDataCb_selfOrClosed harg hincoming)

/-- Data arrives on a connection whose argument is the node. -/
theorem arrive_stage {b : Bufferevent} (h : Connected p i s b)
    (hself : (p.net.connections i).upperCbArg = some .self) (bytes : List UInt8) :
  SelfOrClosed (arrive p i bytes) i
    ∨ ∃ len acc, acc.length < len.toNat ∧ (arrive p i bytes).log = p.log
      ∧ OnMessage (arrive p i bytes) i s len (.msg msgTNodeMsg len) acc
  := by
  have hsame : SelfOrClosed p i := Or.inr hself
  rw [arrive, h.bev]
  dsimp only
  split_ifs
  · exact Or.inl hsame
  · exact Or.inl (hsame.setInput _)
  · apply readReady_stage (h.setInput (b.input ++ bytes))
    simpa [Process.setInput_connections_self] using hself

/-- An event callback closes the connection, or it changes nothing, or the process crashes. -/
theorem occur_event_stage (h : Stage p i s) (what : UInt16) :
  Stage (p.occurDraining (.event i what)) i s
  := by
  have hcase : ((p.occur (.event i what)).net.connections i).bev = none
      ∨ (p.occur (.event i what)).net.crashed = true ∨ p.occur (.event i what) = p := by
    rw [Process.occur]
    split_ifs
    · exact Or.inr (Or.inr rfl)
    · rw [Occurrence.handle]
      split_ifs
      · apply runEventCb_closes
      · exact Or.inr (Or.inr rfl)
  obtain ⟨es, hes, -⟩ := occurDraining_log p (.event i what)
  rcases hcase with hnone | hcrashed | hsame
  · rw [occurDraining_eq hes]
    rcases foldl_drainBody_selfOrClosed (Or.inl hnone : SelfOrClosed _ i) es with h' | h'
    · exact stage_of_bev h'
    · exact .self h'
  · rw [occurDraining_eq hes]
    apply Stage.gone
    left
    rw [foldl_drainBody_crashed]
    exact hcrashed
  · rw [occurDraining_of_log (by rw [hsame]), hsame]
    exact h

/-- Where no message is waited for, none is late. -/
theorem lateIsLast_of_ne (h : ∀ b, Connected p i s b →
    ∀ type len, (p.net.connections i).upperCbArg ≠ some (.msg type len)) (e : ConnectionEvent)
    (after : List ConnectionEvent) :
  LateIsLast i s p e after
  := by
  intro b type len bytes _ hconn harg
  exact absurd harg (h b hconn type len)

/-- Data arrives on a connection whose argument is the node, or that is not served. -/
theorem stage_data_self (hserial : p.net.serialAt i.val = some s)
    (hself : (p.net.connections i).upperCbArg = some .self) (bytes : List UInt8) :
  Stage (p.occurDraining (.data i bytes)) i s
  := by
  by_cases hcan : ∃ b, Connected p i s b
  · obtain ⟨b, hconn⟩ := hcan
    have hoccur : p.occur (.data i bytes) = arrive p i bytes :=
      Process.occur_of_running hconn.running _
    rcases arrive_stage hconn hself bytes with hstays | ⟨len, acc, hacc, hlog, hwait⟩
    · obtain ⟨es, hes, -⟩ := occurDraining_log p (.data i bytes)
      rw [occurDraining_eq hes, hoccur]
      exact (foldl_drainBody_selfOrClosed hstays es).stage
    · rw [occurDraining_of_log (by rw [hoccur, hlog]), hoccur]
      exact .waits len acc hwait hacc
  · have hsame : p.occur (.data i bytes) = p := occur_data_of_not_connected hserial hcan
    rw [occurDraining_of_log (by rw [hsame]), hsame]
    exact .self hself

/-- Data arrives on a connection that waits for the body of a message: the body is not complete
yet, or the message is handed over and its argument is freed. -/
theorem OnMessage.step_data {len : UInt32} {acc : List UInt8}
    (h : OnMessage p i s len (.msg msgTNodeMsg len) acc) (hacc : acc.length < len.toNat)
    (bytes : List UInt8) (after : List ConnectionEvent) :
  Stage (p.serve i s [.data bytes]) i s ∧ LateIsLast i s p (.data bytes) after
    ∨ ∃ len acc, OnMessage (p.serve i s [.data bytes]) i s len .freed acc
      ∧ (LateIsLast i s p (.data bytes) after ↔ Silent (max 1 (len.toNat - acc.length)) after)
  := by
  have harg := h.arg
  obtain ⟨b, hconn, rfl, -⟩ := h.bev
  have hlate : ∀ b' type len' bytes', ConnectionEvent.data bytes = .data bytes' →
      Connected p i s b' → (p.net.connections i).upperCbArg = some (.msg type len') →
      b' = b ∧ len' = len ∧ bytes' = bytes := by
    intro b' type len' bytes' hdata hconn' harg'
    rw [harg] at harg'
    cases harg'
    cases hdata
    exact ⟨Option.some.inj (hconn'.bev.symm.trans hconn.bev), rfl, rfl⟩
  by_cases hmany : len.toNat ≤ (b.input ++ bytes).length
  · right
    refine ⟨len, _, (h.handsOver hacc hmany).2, ?_⟩
    constructor
    · intro hlast
      exact hlast b _ len bytes rfl hconn harg hmany
    · intro hsilent b' type len' bytes' hdata hconn' harg' _
      obtain ⟨rfl, rfl, rfl⟩ := hlate b' type len' bytes' hdata hconn' harg'
      exact hsilent
  · left
    have hfew : (b.input ++ bytes).length < len.toNat := by omega
    refine ⟨.waits len _ (h.serve_few hfew) hfew, ?_⟩
    intro b' type len' bytes' hdata hconn' harg' hmany'
    obtain ⟨rfl, rfl, rfl⟩ := hlate b' type len' bytes' hdata hconn' harg'
    exact absurd hmany' hmany

/-- What comes next on an accepted connection: its argument is not freed, and no message that was
waited for has been completed; or one has, and its argument is freed. -/
theorem Stage.step (h : Stage p i s) (e : ConnectionEvent) (after : List ConnectionEvent) :
  Stage (p.serve i s [e]) i s ∧ LateIsLast i s p e after
    ∨ ∃ len acc, OnMessage (p.serve i s [e]) i s len .freed acc
      ∧ (LateIsLast i s p e after ↔ Silent (max 1 (len.toNat - acc.length)) after)
  := by
  by_cases hserial : p.net.serialAt i.val = some s
  · have hserve := serve_of_serialAt hserial e
    cases e with
    | event what =>
      rw [hserve]
      refine Or.inl ⟨occur_event_stage h what, ?_⟩
      intro b type len bytes hdata
      cases hdata
    | data bytes =>
      cases h with
      | gone h =>
        have hcrashed := h.resolve_right (not_not_intro hserial)
        have hsame : p.occur (.data i bytes) = p := by rw [Process.occur, if_pos hcrashed]
        rw [hserve, ConnectionEvent.occurrence, occurDraining_of_log (by rw [hsame]), hsame]
        refine Or.inl ⟨.gone (Or.inl hcrashed), lateIsLast_of_ne ?_ _ _⟩
        intro b hconn
        rw [hconn.running] at hcrashed
        cases hcrashed
      | self hself =>
        rw [hserve]
        refine Or.inl ⟨stage_data_self hserial hself bytes, lateIsLast_of_ne ?_ _ _⟩
        intro b _ type len harg
        rw [hself] at harg
        cases harg
      | waits len acc hwait hacc => exact hwait.step_data hacc bytes after
  · have hserve : p.serve i s [e] = p := by
      rw [Process.serve, List.foldl_cons, List.foldl_nil, if_neg hserial]
    rw [hserve]
    refine Or.inl ⟨h, lateIsLast_of_ne ?_ _ _⟩
    intro b hconn
    exact absurd hconn.serialAt hserial

/-- After a message whose argument is freed, no other one is completed while nothing comes that
leads to a call. -/
theorem OnMessage.lateIsLast {len : UInt32} {acc : List UInt8}
    (h : OnMessage p i s len .freed acc) {events : List ConnectionEvent}
    (hnot : Throughout (NotFreed i s) p i s events) :
  Throughout (LateIsLast i s) p i s events
  := by
  induction events generalizing p acc with
  | nil => exact throughout_nil
  | cons e events ih =>
    rw [throughout_cons] at hnot ⊢
    constructor
    · intro b type len' bytes _ _ harg
      rw [h.arg] at harg
      cases harg
    · obtain ⟨bytes, -, -, hnext⟩ := h.serve_notFreed hnot.1
      exact ih hnext hnot.2

/-- On an accepted connection no callback is called with an argument that is freed exactly when
nothing comes that leads to a call after a body that was waited for. -/
theorem Stage.notFreed_iff (h : Stage p i s) (events : List ConnectionEvent) :
  Throughout (NotFreed i s) p i s events ↔ Throughout (LateIsLast i s) p i s events
  := by
  induction events generalizing p with
  | nil => exact iff_of_true throughout_nil throughout_nil
  | cons e events ih =>
    rw [throughout_cons, throughout_cons, and_iff_right (h.notFreed e events)]
    rcases h.step e events with ⟨hnext, hlate⟩ | ⟨len, acc, hspent, hlate⟩
    · rw [ih hnext, and_iff_right hlate]
    · rw [hlate, ← hspent.notFreed_iff events]
      exact ⟨fun hnot => ⟨hnot, hspent.lateIsLast hnot⟩, And.left⟩

/-! ### Delivered once -/

/-- A message is handed over once, however it arrives. -/
theorem handed_once (h : Accepted p i s) {len : UInt32} {body : List UInt8}
    (hbody : body.length = len.toNat) {segments : List (List UInt8)}
    (hsegments : segments.flatten = nodeMsgWire len body) :
  ∃ es n, (p.serve i s (segments.map .data)).log = p.log ++ es
    ∧ nodeMessages es = [((i.val : ℤ), msgTNodeMsg, len, n)] ∧ len.toNat ≤ n
  := by
  obtain ⟨before, l, rest, n, rfl, hrest, -, ⟨cb, arg, hlog⟩, hn, -⟩ :=
    exists_handOver h hbody hsegments
  refine ⟨[.nodeMessage cb arg i.val msgTNodeMsg len n], n, ?_, rfl, hn⟩
  rw [List.append_cons, List.map_append, serve_append, serve_nil_segments hrest, hlog]

/-- A message whose argument is not used after it is freed came with its body, or nothing
came after it. -/
theorem DeliveredOnce.noCut_or_silent (h : Accepted p i s) {len : UInt32} {body : List UInt8}
    (hbody : body.length = len.toNat) {segments : List (List UInt8)}
    (hsegments : segments.flatten = nodeMsgWire len body) {further : List ConnectionEvent}
    (hdelivered : DeliveredOnce p i s len segments further) :
  NoCut headerBytes (headerBytes + len.toNat) [] segments ∨ Silent len.toNat further
  := by
  obtain ⟨before, l, rest, n, rfl, hrest, -, -, -, hcase⟩ := exists_handOver h hbody hsegments
  apply hcase.imp_right
  rintro ⟨hlen, hspent⟩
  have hserve : p.serve i s ((before ++ l :: rest).map .data)
      = p.serve i s ((before ++ [l]).map .data) := by
    rw [List.append_cons, List.map_append, serve_append, serve_nil_segments hrest]
  have hnot := hdelivered.notFreed.of_append
  rw [hserve, hspent.notFreed_iff] at hnot
  have hmax : max 1 (len.toNat - ([] : List UInt8).length) = len.toNat := by
    rw [List.length_nil]
    omega
  rwa [hmax] at hnot

/-- A message for the application is delivered once, and no callback of its connection is ever
called with an argument that is freed, exactly when nothing comes that leads to a call after a
message of the connection whose body was waited for. -/
theorem deliveredOnce_iff (h : Accepted p i s) {len : UInt32} {body : List UInt8}
    (hbody : body.length = len.toNat) {segments : List (List UInt8)}
    (hsegments : segments.flatten = nodeMsgWire len body) (further : List ConnectionEvent) :
  DeliveredOnce p i s len segments further
    ↔ Throughout (LateIsLast i s) p i s (segments.map .data ++ further)
  := by
  rw [← h.stage.notFreed_iff]
  exact ⟨DeliveredOnce.notFreed, fun hnot => ⟨handed_once h hbody hsegments, hnot⟩⟩

end

/-- A message whose header and body arrive in two segments. -/
def headerThenContent (len : UInt32) (body : List UInt8) : List (List UInt8) :=
  [messageHeader msgTNodeMsg len, body]

theorem flatten_headerThenContent (len : UInt32) (body : List UInt8) :
  (headerThenContent len body).flatten = nodeMsgWire len body
  := by
  simp [headerThenContent, nodeMsgWire]

theorem deliveredOnce_iff_headerThenContent :
  DeliveredOnce listening 0 0 2 (headerThenContent 2 [104, 105]) [.event bevEventEof]
    ↔ Throughout (LateIsLast 0 0) listening 0 0
      ((headerThenContent 2 [104, 105]).map .data ++ [.event bevEventEof])
  := by
  have hbody : ([104, 105] : List UInt8).length = (2 : UInt32).toNat := rfl
  exact deliveredOnce_iff accepted_listening hbody (flatten_headerThenContent _ _) _

/-- The end of a connection that a message arrived on after its header is reported with an
argument that is freed. -/
theorem message_used_after_free :
  ¬ ∀ (p : NodeProcess) (i : Fin maxOpenConnections) (s : ℕ) (len : UInt32) (body : List UInt8)
    (segments : List (List UInt8)) (further : List ConnectionEvent), Accepted p i s →
    body.length = len.toNat → segments.flatten = nodeMsgWire len body →
    DeliveredOnce p i s len segments further
  := by
  intro h
  have hbody : ([104, 105] : List UInt8).length = (2 : UInt32).toNat := rfl
  have hdelivered := h listening 0 0 2 [104, 105] (headerThenContent 2 [104, 105])
    [.event bevEventEof] accepted_listening hbody (flatten_headerThenContent _ _)
  rcases hdelivered.noCut_or_silent accepted_listening hbody (flatten_headerThenContent _ _) with
    hcut | ⟨segments, hsegments, -⟩
  · have hcut := hcut 1
    revert hcut
    decide
  · cases segments with
    | nil => cases hsegments
    | cons l ls => cases hsegments
