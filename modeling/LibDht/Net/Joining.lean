import LibDht.Net.Exhaustion
import LibDht.Net.Malformed
import LibDht.Net.Replies

/-!
# Joining a network

A node that joins asks a contact for the successor of its own identifier. The reply passes
through three callbacks: its reader, the one for the node that was found, and an event that
is activated there. A failure is a zeroed node to all of them, and none looks at the node:
the application is told that the node has joined whatever was read.
-/

/-- The process that has asked `contact` for its successor, after the segments of a reply. They
arrive on the connection that the request went out on, if it did. -/
def joinReplied (p : NodeProcess) (contact : NodeInfo) (arg : ℕ) (segments : List (List UInt8)) :
    NodeProcess :=
  let asked := p.occur (.networkJoin contact arg)
  match netEmptyConnectionSlot p.net with
  | some i => asked.deliver i p.net.nextSerial segments
  | none => asked

/-- The process after the event that the reply may have activated. -/
def joinDone (p : NodeProcess) (contact : NodeInfo) (arg : ℕ) (segments : List (List UInt8)) :
    NodeProcess :=
  let q := joinReplied p contact arg segments
  if .joinActivated arg ∈ q.log.drop p.log.length then q.occur (.joined arg) else q

/-- What the reader of the reply finds: the bytes that come first. -/
def FirstBytes (segments : List (List UInt8)) (buf : List UInt8) : Prop :=
  ∃ rest, collect 1 [] segments = some (buf, rest)

/-- The bytes are a complete reply, with a node that has an address. -/
def WholeReply (buf : List UInt8) (n : NodeInfo) : Prop :=
  n.IP ≠ 0 ∧ ∃ hops tail, buf = successorReply n hops ++ tail

/-- The application is told that the node has joined, and the maintenance is started, only
when the first successor has an address and is from a complete reply; otherwise there is no
successor. -/
structure JoinsInNetwork (p : NodeProcess) (contact : NodeInfo) (arg : ℕ)
    (segments : List (List UInt8)) : Prop where
  joined : Logs (· = .joined arg) p (joinDone p contact arg segments) →
    ∃ buf, FirstBytes segments buf
      ∧ WholeReply buf ((joinReplied p contact arg segments).node.successor 0)
  unjoined : ¬ Logs (· = .joined arg) p (joinDone p contact arg segments) →
    ∀ k, (joinDone p contact arg segments).node.successor k = nullNode

/-- The bytes that have come for a value, with those that were in its place for the rest, are
those of `v`. -/
def Codec.Completes {α : Type} (c : Codec α) (old v : α) (buf : List UInt8) : Prop :=
  buf.take c.size ++ (c.encode old).drop (buf.take c.size).length = c.encode v

/-- There is no node in a reply that is read over `old`: it does not start with `Y`, or all
bytes of the node are zero, those that have come and those that were there for the rest. -/
def NoNode (old : NodeInfo) (buf : List UInt8) : Prop :=
  buf.head? ≠ some replyYes
    ∨ (u32.Completes old.id 0 (buf.drop 1) ∧ u32.Completes old.IP 0 (buf.drop 5)
      ∧ u16.Completes old.port 0 (buf.drop 9))

/-- When the request is sent and a reply comes, the event for it is made and the bytes that
come first are a complete reply with an address, or the event is not made and there is no
node in them. -/
def RepliesInNetwork (p : NodeProcess) (segments : List (List UInt8)) : Prop :=
  p.net.ask.2.CanSend → ∀ buf, FirstBytes segments buf →
    if (p.net.outcome (p.net.calls + 5)).eventNew = true then ∃ n, WholeReply buf n
    else NoNode (p.net.outcome p.net.calls).node buf

/-! ### The reply -/

theorem Codec.fill_eq_iff {α : Type} (c : Codec α) (old v : α) (buf : List UInt8) :
  (c.fill old buf).1 = v ↔ c.Completes old v buf
  := by
  have hlen : (buf.take c.size ++ (c.encode old).drop (buf.take c.size).length).length
      = c.size := by
    rw [List.length_append, List.length_drop, c.length_encode, List.length_take]
    omega
  rw [Codec.fill, Codec.Completes]
  constructor
  · intro h
    rw [← h, c.encode_decode _ hlen]
  · intro h
    rw [h, c.decode_encode]

theorem readFound_eq_null_iff (old : NodeInfo × Int16) (result : UInt8) {buf : List UInt8}
    (hbuf : buf ≠ []) :
  (readFound old result buf).1 = nullNode ↔ NoNode old.1 buf
  := by
  cases buf with
  | nil => exact absurd rfl hbuf
  | cons x l =>
    by_cases hx : x = replyYes
    · subst hx
      rw [readFound_yes, NoNode]
      simp only [List.head?_cons, ne_eq, not_true_eq_false, false_or, nullNode, NodeInfo.mk.injEq,
        Codec.fill_eq_iff, List.drop_succ_cons, List.drop_zero]
    · rw [readFound_no hx, NoNode]
      simp [hx]

/-- A complete reply is read as the node in it. -/
theorem WholeReply.readFound {buf : List UInt8} {n : NodeInfo} (h : WholeReply buf n)
    (old : NodeInfo × Int16) (result : UInt8) :
  (readFound old result buf).1 = n
  := by
  obtain ⟨-, hops, tail, rfl⟩ := h
  rw [successorReply, List.cons_append, List.append_assoc, readFound_node]

theorem FirstBytes.ne_nil {segments : List (List UInt8)} {buf : List UInt8}
    (h : FirstBytes segments buf) :
  buf ≠ []
  := by
  obtain ⟨rest, hcollect⟩ := h
  have hlen := (collect_eq_some hcollect).1
  rintro rfl
  exact absurd hlen (by decide)

theorem FirstBytes.unique {segments : List (List UInt8)} {buf buf' : List UInt8}
    (h : FirstBytes segments buf) (h' : FirstBytes segments buf') :
  buf' = buf
  := by
  obtain ⟨rest, hcollect⟩ := h
  obtain ⟨rest', hcollect'⟩ := h'
  rw [hcollect] at hcollect'
  exact (Prod.mk.inj (Option.some.inj hcollect')).1.symm

/-! ### The request -/

section

variable {p : NodeProcess} {i : Fin maxOpenConnections} {s : ℕ}

theorem deliver_disabled (h : p.net.isEnabled i = false) (segments : List (List UInt8)) :
  p.deliver i s segments = p
  := by
  induction segments with
  | nil => rfl
  | cons l ls ih =>
    rw [Process.deliver, List.foldl_cons, arrive_disabled h, ite_self]
    exact ih

/-- What the reply to a join is filled in, in memory that nobody has written. -/
def joinData (net : NodeNet) (arg : ℕ) : NodeFoundCbData where
  cb := .networkJoinSuccFound arg
  node := (net.outcome net.calls).node
  hops := (net.outcome net.calls).hops

/-- A request that can be sent waits for its reply. -/
theorem findSuccessorRemote_of_canSend {net : NodeNet} (h : net.ask.2.CanSend)
    (hrun : net.crashed = false) (hi : netEmptyConnectionSlot net = some i) (n : NodeInfo)
    (id : HashType) (arg : ℕ) :
  let net' := (net.findSuccessorRemote n id (.networkJoinSuccFound arg)).2
  (∃ b, (net'.connections i).bev = some b ∧ b.serial = net.nextSerial ∧ b.enabled = true
      ∧ b.input = [] ∧ b.low = 0)
    ∧ (net'.connections i).readCb = some .nodeFoundRemoteCb
    ∧ (net'.connections i).upperCbArg = some (.found (joinData net arg))
    ∧ net'.crashed = false ∧ net'.calls = net.calls + 4 ∧ net'.outcome = net.outcome
  := by
  have hpos : ¬ ((i.val : ℤ) < 0) := by omega
  have hi' : netEmptyConnectionSlot net.ask.2 = some i := (netEmptyConnectionSlot_ask net).trans hi
  intro net'
  have hnet' : net' = (net.findSuccessorRemote n id (.networkJoinSuccFound arg)).2 := rfl
  rw [NodeNet.findSuccessorRemote] at hnet'
  simp only at hnet'
  rw [nodeConnectAndSendMessage_of_canSend h hi'] at hnet'
  simp only [hpos, if_false] at hnet'
  rw [netConnectionGetBuffer_of_bev (b := { net.ask.2.freshBev n.IP with
    output := ((Request.findSuccessor id).message n).text, enabled := true })
    (by dsimp only; rw [Function.update_self]; rfl)] at hnet'
  simp only at hnet'
  have hc : net'.connections i = { taken (net.ask.2.connections i) i
      { net.ask.2.freshBev n.IP with
        output := ((Request.findSuccessor id).message n).text ++ (Request.findSuccessor id).body
        enabled := true }
      ((Request.findSuccessor id).message n) (some .nodeFoundRemoteCb) (some .nodeRemoteFindEvent)
      (some (.found (joinData net arg))) with sin := (n.IP, n.port) } := by
    rw [hnet']
    simp [NetServer.write, NetServer.modifyBev, NetServer.modify, taken, joinData, NetServer.ask,
      Request.message]
  refine ⟨?_, ?_, ?_, ?_, ?_, ?_⟩
  · rw [hc]
    exact ⟨_, rfl, rfl, rfl, rfl, rfl⟩
  · rw [hc]
    rfl
  · rw [hc]
    rfl
  · rw [hnet']
    exact hrun
  · rw [hnet']
    rfl
  · rw [hnet']
    rfl

/-- A request that cannot be sent leaves nothing that a reply can arrive on. -/
theorem findSuccessorRemote_of_not_canSend {net : NodeNet} (h : ¬ net.ask.2.CanSend)
    (hi : netEmptyConnectionSlot net = some i) (n : NodeInfo) (id : HashType) (cb : FoundCb) :
  NodeNet.isEnabled (net.findSuccessorRemote n id cb).2 i = false
  := by
  have hneg : (-1 : ℤ) < 0 := by decide
  have hi' : netEmptyConnectionSlot net.ask.2 = some i := (netEmptyConnectionSlot_ask net).trans hi
  rw [NodeNet.findSuccessorRemote]
  dsimp only
  rw [if_pos (by rw [nodeConnectAndSendMessage_of_not_canSend h]; exact hneg)]
  exact isEnabled_of_not_canSend h hi' _ _ _ _

/-! ### The callbacks -/

theorem logs_iff {ν : Type} {P : Event → Prop} {p q : Process ν} {es : List Event}
    (hlog : q.log = p.log ++ es) :
  Logs P p q ↔ ∃ e ∈ es, P e
  := by
  constructor
  · rintro ⟨es', hes', e, he, hP⟩
    rw [hlog] at hes'
    rw [← List.append_cancel_left hes'] at he
    exact ⟨e, he, hP⟩
  · rintro ⟨e, he, hP⟩
    exact ⟨es, hlog, e, he, hP⟩

/-- Nothing but the slot changes when a connection is closed and its argument freed. -/
theorem close_free_net (p : NodeProcess) (i : Fin maxOpenConnections) (arg : CbArg) :
  let q := (p.close i.val).free i.val arg
  q.net.crashed = p.net.crashed ∧ q.net.outcome = p.net.outcome ∧ q.net.calls = p.net.calls
  := by
  simp [netConnectionClose, netConnectionSet, NetServer.modify]

theorem nodeNetworkJoinSuccFound_spec {ν : Type} [Remote ν] (p : Process ν) (arg : ℕ)
    (n : NodeInfo) :
  let q := nodeNetworkJoinSuccFound p arg n
  q.node.successor = Function.update p.node.successor 0 n ∧ q.net = p.net
    ∧ q.log = p.log ++ .succIndex 0
      :: if Remote.eventNew p.net = true then [.joinActivated arg] else []
  := by
  rw [nodeNetworkJoinSuccFound]
  dsimp only
  rw [Process.setSucc_net]
  by_cases hnew : Remote.eventNew p.net = true
  · simp [hnew]
  · simp [hnew]

/-- The reader of the reply writes the first successor, whatever it has found, and activates
the event if it is made. -/
theorem nodeFoundRemoteCb_join {b : Bufferevent} (hb : (p.net.connections i).bev = some b)
    {data : NodeFoundCbData} {arg : ℕ} (hcb : data.cb = .networkJoinSuccFound arg) :
  let n := (readFound (data.node, data.hops) (p.net.outcome p.net.calls).byte b.input).1
  let q := nodeFoundRemoteCb p i.val (some (.found data))
  q.node.successor = Function.update p.node.successor 0 n
    ∧ q.net.crashed = p.net.crashed ∧ q.net.serialIn i = none
    ∧ ∃ es, q.log = p.log ++ es ∧ .joined arg ∉ es
      ∧ (.joinActivated arg ∈ es ↔ (p.net.outcome (p.net.calls + 1)).eventNew = true)
  := by
  intro n q
  let hops := (readFound (data.node, data.hops) (p.net.outcome p.net.calls).byte b.input).2
  have hq : q = nodeNetworkJoinSuccFound
      ((((p.ask.2.emit (.replyRead b.serial)).close i.val).free i.val (.found data)).emit
        (.found data.cb n hops)) arg n := by
    show nodeFoundRemoteCb p i.val (some (.found data)) = _
    rw [nodeFoundRemoteCb_of_bev hb]
    rw [nodeFound]
    simp only [hcb]
    rfl
  obtain ⟨hcrashed, houtcome, hcalls⟩ :=
    close_free_net (p.ask.2.emit (.replyRead b.serial)) i (.found data)
  have hserial := serialIn_close_free (p.ask.2.emit (.replyRead b.serial)) i (.found data)
  have hnode : (((p.ask.2.emit (.replyRead b.serial)).close i.val).free i.val (.found data)).node
      = p.node := by simp
  have hlog : (((p.ask.2.emit (.replyRead b.serial)).close i.val).free i.val (.found data)).log
      = p.log ++ [.replyRead b.serial] := by simp
  generalize ((p.ask.2.emit (.replyRead b.serial)).close i.val).free i.val (.found data) = r
    at hq hnode hcrashed hserial houtcome hcalls hlog
  have hevent : Remote.eventNew r.net = (p.net.outcome (p.net.calls + 1)).eventNew := by
    show (r.net.outcome r.net.calls).eventNew = _
    rw [houtcome, hcalls]
    rfl
  obtain ⟨hsuccessor, hnet, hlog'⟩ :=
    nodeNetworkJoinSuccFound_spec (r.emit (.found data.cb n hops)) arg n
  rw [← hq] at hsuccessor hnet hlog'
  refine ⟨?_, ?_, ?_, [.replyRead b.serial, .found data.cb n hops] ++ .succIndex 0
      :: if Remote.eventNew r.net = true then [.joinActivated arg] else [], ?_, ?_, ?_⟩
  · rw [hsuccessor, Process.emit_node, hnode]
  · rw [hnet]
    exact hcrashed
  · rw [hnet]
    exact hserial
  · rw [hlog', Process.emit_log, Process.emit_net, hlog]
    simp
  · split <;> simp
  · rw [hevent]
    split <;> simp_all

/-! ### The run -/

/-- The successors that a join has written, with what it has logged: the node that was read in
the first entry, or nothing. -/
inductive JoinOutcome (p : NodeProcess) (arg : ℕ) (segments : List (List UInt8)) :
    NodeProcess → Prop where
  | replied {q : NodeProcess} (hsend : p.net.ask.2.CanSend) {buf : List UInt8}
      (hbuf : FirstBytes segments buf) (result : UInt8)
      (hnode : q.node.successor = Function.update p.node.successor 0
        (readFound ((p.net.outcome p.net.calls).node, (p.net.outcome p.net.calls).hops) result
          buf).1)
      (hrun : q.net.crashed = false) {es : List Event} (hlog : q.log = p.log ++ es)
      (hjoined : .joined arg ∉ es)
      (hactivated : .joinActivated arg ∈ es
        ↔ (p.net.outcome (p.net.calls + 5)).eventNew = true) :
      JoinOutcome p arg segments q
  | silent {q : NodeProcess} (hno : p.net.ask.2.CanSend → ¬ ∃ buf, FirstBytes segments buf)
      (hnode : q.node.successor = p.node.successor) {e : Event} (hlog : q.log = p.log ++ [e])
      (hjoined : .joined arg ≠ e) (hactivated : .joinActivated arg ≠ e) :
      JoinOutcome p arg segments q

theorem joinReplied_outcome (hrun : p.net.crashed = false) (contact : NodeInfo) (arg : ℕ)
    (segments : List (List UInt8)) :
  JoinOutcome p arg segments (joinReplied p contact arg segments)
  := by
  rw [joinReplied, Process.occur_of_running hrun, Occurrence.handle]
  -- what asking does to the process
  generalize hq : nodeNetworkJoin p contact arg = q
  have hnode : q.node.successor = p.node.successor := by rw [← hq]; rfl
  have hnet : q.net = (p.net.findSuccessorRemote contact p.node.self.id
      (.networkJoinSuccFound arg)).2 := by rw [← hq]; rfl
  obtain ⟨rc, hlog⟩ : ∃ rc, q.log = p.log ++ [.asked (.networkJoinSuccFound arg) rc] := by
    rw [← hq]
    exact ⟨_, rfl⟩
  have hjoined (rc : ℤ) : .joined arg ≠ Event.asked (.networkJoinSuccFound arg) rc := by
    intro h
    cases h
  have hactivated (rc : ℤ) : .joinActivated arg ≠ Event.asked (.networkJoinSuccFound arg) rc := by
    intro h
    cases h
  cases hi : netEmptyConnectionSlot p.net with
  | none =>
    have hask := (netEmptyConnectionSlot_ask p.net).trans hi
    have hfull : p.net.ask.2.CanSend → ¬ ∃ buf, FirstBytes segments buf :=
      fun hsend => absurd hsend.slot (netEmptyConnectionSlot_eq_none.mp hask)
    exact JoinOutcome.silent hfull hnode hlog (hjoined rc) (hactivated rc)
  | some i =>
    by_cases hsend : p.net.ask.2.CanSend
    · obtain ⟨⟨b, hb, hserial, henabled, hinput, hlow⟩, hread, harg, hcrashed, hcalls, houtcome⟩ :=
        findSuccessorRemote_of_canSend hsend hrun hi contact p.node.self.id arg
      rw [← hnet] at hb hread harg hcrashed hcalls houtcome
      have hconn : Connected q i p.net.nextSerial b := ⟨hcrashed, hb, hserial, henabled⟩
      simp only [deliver_first hconn hinput hlow]
      cases hcollect : collect 1 [] segments with
      | none =>
        refine JoinOutcome.silent (fun _ => ?_) hnode hlog (hjoined rc) (hactivated rc)
        rintro ⟨buf, rest, hbuf⟩
        rw [hcollect] at hbuf
        cases hbuf
      | some found =>
        obtain ⟨buf, rest⟩ := found
        have hready := readReady_setInput hread buf
        rw [harg, runDataCb] at hready
        obtain ⟨hnode', hcrashed', hgone, es, hlog', hjoined', hactivated'⟩ :=
          nodeFoundRemoteCb_join (hconn.setInput buf).bev
            (show (joinData p.net arg).cb = .networkJoinSuccFound arg from rfl)
        rw [← hready] at hnode' hcrashed' hgone hlog'
        simp only
        have hclosed : NodeNet.serialIn (readReady (q.setInput i buf) i).net i
            ≠ some p.net.nextSerial := by
          rw [hgone]
          intro h
          cases h
        rw [deliver_closed hclosed]
        refine JoinOutcome.replied hsend ⟨rest, hcollect⟩ (q.net.outcome q.net.calls).byte ?_ ?_
          (show _ = p.log ++ (.asked (.networkJoinSuccFound arg) rc :: es) from ?_) ?_ ?_
        · rw [hnode', ← hnode]
          rfl
        · rw [hcrashed']
          exact hcrashed
        · rw [hlog', Process.setInput_log, hlog, List.append_assoc]
          rfl
        · rintro (hmem | ⟨_, hmem⟩)
          · exact hjoined' hmem
        · have hanswer : (q.setInput i buf).net.outcome ((q.setInput i buf).net.calls + 1)
              = p.net.outcome (p.net.calls + 5) := by
            show q.net.outcome (q.net.calls + 1) = _
            rw [houtcome, hcalls]
          rw [List.mem_cons, hactivated', hanswer]
          exact or_iff_right (hactivated rc)
    · have hdisabled := findSuccessorRemote_of_not_canSend hsend hi contact p.node.self.id
        (.networkJoinSuccFound arg)
      rw [← hnet] at hdisabled
      simp only [deliver_disabled hdisabled]
      exact JoinOutcome.silent (fun h => absurd h hsend) hnode hlog (hjoined rc) (hactivated rc)

theorem nodeNetworkJoined_logs (p : NodeProcess) (arg : ℕ) :
  Logs (· = .joined arg) p (nodeNetworkJoined p arg)
  := by
  have hacts : Acts (fun _ => True) true (p.emit (.joined arg)) (nodeNetworkJoined p arg) :=
    nodeFixFingers_acts (fun _ _ => trivial) (nodeUpdateSuccs_acts (fun _ _ => trivial)
      (nodeNetworkStabalize_acts (fun _ _ => trivial) (Acts.refl _)))
  have hemit : Logs (· = .joined arg) p (p.emit (.joined arg)) :=
    Logs.emit (P := (· = .joined arg)) rfl p
  exact hemit.then_log hacts.log_append

/-- A process that has not been told to be in a network is what the reply made of it. -/
theorem joinDone_of_log {contact : NodeInfo} {arg : ℕ} {segments : List (List UInt8)}
    {es : List Event} (hlog : (joinReplied p contact arg segments).log = p.log ++ es)
    (hactivated : .joinActivated arg ∉ es) (hjoined : .joined arg ∉ es) :
  joinDone p contact arg segments = joinReplied p contact arg segments
    ∧ ¬ Logs (· = .joined arg) p (joinDone p contact arg segments)
  := by
  have hdone : joinDone p contact arg segments = joinReplied p contact arg segments := by
    rw [joinDone]
    simp only [hlog, List.drop_left, if_neg hactivated]
  refine ⟨hdone, ?_⟩
  rw [hdone, logs_iff hlog]
  rintro ⟨e, he, rfl⟩
  exact hjoined he

/-- A process that has been told to be in a network. -/
theorem joinDone_logs {contact : NodeInfo} {arg : ℕ} {segments : List (List UInt8)}
    {es : List Event} (hlog : (joinReplied p contact arg segments).log = p.log ++ es)
    (hrun : (joinReplied p contact arg segments).net.crashed = false)
    (hactivated : .joinActivated arg ∈ es) :
  Logs (· = .joined arg) p (joinDone p contact arg segments)
  := by
  have hdone : joinDone p contact arg segments
      = nodeNetworkJoined (joinReplied p contact arg segments) arg := by
    rw [joinDone]
    simp only [hlog, List.drop_left, if_pos hactivated]
    rw [Process.occur_of_running hrun, Occurrence.handle]
  rw [hdone]
  exact (nodeNetworkJoined_logs _ arg).after_log ⟨es, hlog⟩

/-- Of a node that has not been told to be in a network, it is to be shown that there is no
successor. -/
theorem joinsInNetwork_iff_of_unjoined {contact : NodeInfo} {arg : ℕ}
    {segments : List (List UInt8)} {es : List Event}
    (hlog : (joinReplied p contact arg segments).log = p.log ++ es)
    (hactivated : .joinActivated arg ∉ es) (hjoined : .joined arg ∉ es) :
  JoinsInNetwork p contact arg segments
    ↔ ∀ k, (joinReplied p contact arg segments).node.successor k = nullNode
  := by
  obtain ⟨hdone, hlogs⟩ := joinDone_of_log hlog hactivated hjoined
  constructor
  · intro h
    rw [← hdone]
    exact h.unjoined hlogs
  · intro h
    refine ⟨fun hyes => absurd hyes hlogs, fun _ => ?_⟩
    rw [hdone]
    exact h

/-- Of a node that has been told to be in a network, it is to be shown that the reply was
complete. -/
theorem joinsInNetwork_iff_of_joined {contact : NodeInfo} {arg : ℕ}
    {segments : List (List UInt8)} {buf : List UInt8} (hbuf : FirstBytes segments buf)
    {old : NodeInfo × Int16} {result : UInt8}
    (hfirst : (joinReplied p contact arg segments).node.successor 0
      = (readFound old result buf).1)
    (hlogs : Logs (· = .joined arg) p (joinDone p contact arg segments)) :
  JoinsInNetwork p contact arg segments ↔ ∃ n, WholeReply buf n
  := by
  constructor
  · intro h
    obtain ⟨buf', hbuf', hwhole⟩ := h.joined hlogs
    rw [hbuf.unique hbuf'] at hwhole
    exact ⟨_, hwhole⟩
  · rintro ⟨n, hwhole⟩
    refine ⟨fun _ => ⟨buf, hbuf, ?_⟩, fun hno => absurd hlogs hno⟩
    rw [hfirst, hwhole.readFound]
    exact hwhole

/-- What is right about a reply depends on the bytes that come first. -/
theorem repliesInNetwork_iff {segments : List (List UInt8)} (hsend : p.net.ask.2.CanSend)
    {buf : List UInt8} (hbuf : FirstBytes segments buf) :
  RepliesInNetwork p segments
    ↔ if (p.net.outcome (p.net.calls + 5)).eventNew = true then ∃ n, WholeReply buf n
      else NoNode (p.net.outcome p.net.calls).node buf
  := by
  constructor
  · intro h
    exact h hsend buf hbuf
  · intro h _ buf' hbuf'
    rw [hbuf.unique hbuf']
    exact h

/-- The application is told that the node has joined exactly as it should be when what the
contact replies is right. -/
theorem joinsInNetwork_iff (hrun : p.net.crashed = false)
    (hnull : ∀ k, p.node.successor k = nullNode) (contact : NodeInfo) (arg : ℕ)
    (segments : List (List UInt8)) :
  JoinsInNetwork p contact arg segments ↔ RepliesInNetwork p segments
  := by
  cases joinReplied_outcome hrun contact arg segments with
  | @replied hsend buf hbuf result hnode hrun' es hlog hjoined hactivated =>
    have hfirst := congrFun hnode 0
    rw [Function.update_self] at hfirst
    rw [repliesInNetwork_iff hsend hbuf]
    by_cases hevent : (p.net.outcome (p.net.calls + 5)).eventNew = true
    · rw [if_pos hevent]
      exact joinsInNetwork_iff_of_joined hbuf hfirst
        (joinDone_logs hlog hrun' (hactivated.mpr hevent))
    · have hnull' := readFound_eq_null_iff
        ((p.net.outcome p.net.calls).node, (p.net.outcome p.net.calls).hops) result hbuf.ne_nil
      rw [← hfirst] at hnull'
      rw [if_neg hevent, joinsInNetwork_iff_of_unjoined hlog
        (fun h => hevent (hactivated.mp h)) hjoined, ← hnull']
      constructor
      · intro h
        exact h 0
      · intro h k
        by_cases hk : k = 0
        · rw [hk, h]
        · rw [hnode, Function.update_of_ne hk]
          exact hnull k
  | @silent hno hnode e hlog hjoined hactivated =>
    rw [joinsInNetwork_iff_of_unjoined hlog (by simpa using hactivated) (by simpa using hjoined)]
    refine iff_of_true ?_ ?_
    · intro k
      rw [hnode]
      exact hnull k
    · intro hsend buf hbuf
      exact absurd ⟨buf, hbuf⟩ (hno hsend)

end

/-- A contact replies that it has found no node. -/
def foundNothing : List (List UInt8) :=
  [[replyNo]]

/-- A node that is in no network. -/
def outside : NodeProcess :=
  Process.boot NodeSelf.blank fun _ => Outcome.fine

theorem joinsInNetwork_iff_foundNothing :
  JoinsInNetwork outside nullNode 0 foundNothing ↔ RepliesInNetwork outside foundNothing
  := joinsInNetwork_iff rfl (fun _ => rfl) nullNode 0 foundNothing

theorem firstBytes_foundNothing :
  FirstBytes foundNothing [replyNo]
  := ⟨[], rfl⟩

theorem canSend_outside :
  outside.net.ask.2.CanSend
  := ⟨⟨⟨0, rfl⟩, rfl, rfl⟩, rfl, rfl⟩

/-- The application is told that the node has joined although no successor was found. -/
theorem joined_without_successor :
  ¬ ∀ (p : NodeProcess) (contact : NodeInfo) (arg : ℕ) (segments : List (List UInt8)),
    p.net.crashed = false → (∀ k, p.node.successor k = nullNode) →
    JoinsInNetwork p contact arg segments
  := by
  intro h
  have hlogs : Logs (· = .joined 0) outside (joinDone outside nullNode 0 foundNothing) := by
    cases joinReplied_outcome (p := outside) rfl nullNode 0 foundNothing with
    | replied hsend hbuf result hnode hrun hlog hjoined hactivated =>
      exact joinDone_logs hlog hrun (hactivated.mpr rfl)
    | silent hno hnode hlog hjoined hactivated =>
      exact absurd ⟨_, firstBytes_foundNothing⟩ (hno canSend_outside)
  obtain ⟨buf, hbuf, -, hops, tail, hwhole⟩ :=
    (h outside nullNode 0 foundNothing rfl fun _ => rfl).joined hlogs
  rw [firstBytes_foundNothing.unique hbuf] at hwhole
  exact absurd (List.cons.inj hwhole).1 (by decide)
