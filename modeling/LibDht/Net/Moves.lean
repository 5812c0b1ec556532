import LibDht.Net.Advances

/-!
# What happens to a process

Whatever happens to a process advances its connection table, and adds to its log. At most
one reply is read at a time, and the connection it came on is closed: its serial is in the
table no more. A lookup that is started on behalf of another node waits for the connection
that its request came in on.
-/

/-- The serials of the connections whose replies were read, in order. -/
def repliesRead (log : List Event) : List ℕ :=
  log.filterMap fun
    | .replyRead s => some s
    | _ => none

@[simp]
theorem repliesRead_append (l l' : List Event) :
  repliesRead (l ++ l') = repliesRead l ++ repliesRead l'
  := List.filterMap_append ..

theorem repliesRead_eq_nil {l : List Event} {found : Bool} (h : ∀ e ∈ l, e.Internal found) :
  repliesRead l = []
  := by
  apply List.filterMap_eq_nil_iff.mpr
  intro e he
  cases e with
  | replyRead s => exact absurd (h _ he) not_false
  | _ => rfl

theorem numbered_boot (s : NodeSelf) (outcome : ℕ → Outcome) :
  (Process.boot s outcome).net.Numbered
  := by
  constructor
  · intro i s hs
    cases hs
  · intro i j s hs
    cases hs

/-- The request was made on a connection that is open. -/
def NodeNet.AsksOn (net : NodeNet) (h : IncomingHandlerData) : Prop :=
  ∃ i : Fin maxOpenConnections, h.connection = i.val
    ∧ ∃ k, net.serialIn i = some k ∧ h.asker = some k

/-- No reply is read on the way from `p` to `q`. -/
structure Moves (R : IncomingHandlerData → Prop) (p q : NodeProcess) : Prop where
  net : Advances R p.net q.net
  log : ∃ es, q.log = p.log ++ es ∧ repliesRead es = []

/-- At most one reply is read on the way from `p` to `q`, and its connection is closed. -/
structure Happens (R : IncomingHandlerData → Prop) (p q : NodeProcess) : Prop where
  net : Advances R p.net q.net
  log : ∃ es, q.log = p.log ++ es ∧ (repliesRead es = []
    ∨ ∃ i s, repliesRead es = [s] ∧ p.net.serialIn i = some s
      ∧ (p.net.Numbered → ∀ j, q.net.serialIn j ≠ some s))

section

variable {R : IncomingHandlerData → Prop} {p q : NodeProcess}

theorem Moves.happens (h : Moves R p q) :
  Happens R p q
  := by
  obtain ⟨es, hes, hnil⟩ := h.log
  exact ⟨h.net, es, hes, Or.inl hnil⟩

namespace Moves

@[refl]
theorem refl (p : NodeProcess) :
  Moves R p p
  := ⟨Advances.refl _, [], by simp, rfl⟩

theorem then_acts (h : Moves R p q) {ok : FoundCb → Prop} {found : Bool} {q' : NodeProcess}
    (hacts : Acts ok found q q') (hR : ∀ d, ok (.successorFoundForRemote d) → R d) :
  Moves R p q'
  := by
  obtain ⟨es, hes, hnil⟩ := h.log
  obtain ⟨es', hes', hint⟩ := hacts.log
  refine ⟨h.net.trans (hacts.calls.advances hR), es ++ es', ?_, ?_⟩
  · rw [hes', hes, List.append_assoc]
  · rw [repliesRead_append, hnil, repliesRead_eq_nil hint]
    rfl

theorem then_net (h : Moves R p q) {q' : NodeProcess} (hnet : Advances R q.net q'.net)
    (hlog : q'.log = q.log) :
  Moves R p q'
  := by
  refine ⟨h.net.trans hnet, ?_⟩
  rw [hlog]
  exact h.log

theorem emit (h : Moves R p q) {e : Event} (he : repliesRead [e] = []) :
  Moves R p (q.emit e)
  := by
  obtain ⟨es, hes, hnil⟩ := h.log
  refine ⟨h.net, es ++ [e], ?_, ?_⟩
  · rw [Process.emit_log, hes, List.append_assoc]
  · rw [repliesRead_append, hnil, he]
    rfl

theorem crash (h : Moves R p q) :
  Moves R p q.crash
  := h.then_net (Advances.same rfl rfl) rfl

theorem close (h : Moves R p q) (connection : ℤ) :
  Moves R p (q.close connection)
  := h.then_net (Advances.close _ connection) rfl

theorem free (h : Moves R p q) (connection : ℤ) (arg : CbArg) :
  Moves R p (q.free connection arg)
  := h.then_net (Advances.dangle q.net connection arg) rfl

theorem ask (h : Moves R p q) :
  Moves R p q.ask.2
  := h.then_net (Advances.ask q.net) rfl

theorem setInput (h : Moves R p q) (i : Fin maxOpenConnections) (rest : List UInt8) :
  Moves R p (q.setInput i rest)
  := by
  have hnet : Advances R q.net (q.setInput i rest).net := Advances.modifyBev q.net i _ fun _ => rfl
  exact h.then_net hnet rfl

theorem write (h : Moves R p q) (i : Fin maxOpenConnections) (bytes : List UInt8) :
  Moves R p { q with net := q.net.write i bytes }
  := h.then_net (Advances.write q.net i bytes) rfl

end Moves

/-! ### Buffers -/

theorem withBuffer_of_bev {i : Fin maxOpenConnections} {b : Bufferevent}
    (hb : (p.net.connections i).bev = some b)
    (f : NodeProcess → Fin maxOpenConnections → Bufferevent → NodeProcess) :
  p.withBuffer i.val f = f p i b
  := by
  simp [Process.withBuffer, netConnectionGetBuffer, hb]

/-- The use of a buffer of a connection that is not open crashes the process. -/
theorem withBuffer_cases (p : NodeProcess) (connection : ℤ) :
  (∀ f, p.withBuffer connection f = p.crash)
    ∨ ∃ i b, connection = (i.val : ℤ) ∧ (p.net.connections i).bev = some b
  := by
  cases hi : netSlot connection with
  | none =>
    left
    intro f
    simp [Process.withBuffer, netConnectionGetBuffer, hi, Process.crash]
  | some i =>
    have hconn := netSlot_eq_some hi
    subst hconn
    cases hb : (p.net.connections i).bev with
    | none =>
      left
      intro f
      simp [Process.withBuffer, netConnectionGetBuffer, hb, Process.crash, NetServer.crash]
    | some b =>
      right
      exact ⟨i, b, rfl, hb⟩

theorem Moves.withBuffer (h : Moves R p q) (connection : ℤ)
    {f : NodeProcess → Fin maxOpenConnections → Bufferevent → NodeProcess}
    (hf : ∀ i b, connection = (i.val : ℤ) → (q.net.connections i).bev = some b →
      Moves R p (f q i b)) :
  Moves R p (q.withBuffer connection f)
  := by
  rcases withBuffer_cases q connection with hcrash | ⟨i, b, rfl, hb⟩
  · rw [hcrash]
    exact h.crash
  · rw [withBuffer_of_bev hb]
    exact hf i b rfl hb

/-! ### Handlers of requests -/

@[simp]
theorem serialIn_setInput (p : NodeProcess) (i j : Fin maxOpenConnections) (rest : List UInt8) :
  NodeNet.serialIn (p.setInput i rest).net j = NodeNet.serialIn p.net j
  := by
  unfold NodeNet.serialIn Process.setInput NetServer.modifyBev NetServer.modify
  by_cases hj : j = i
  · subst hj
    simp [Function.comp_def]
  · simp [Function.update_of_ne hj]

/-- A connection is closed, and what its slot points to is freed. -/
@[simp]
theorem serialIn_close_free (p : NodeProcess) (i : Fin maxOpenConnections) (arg : CbArg) :
  NodeNet.serialIn ((p.close i.val).free i.val arg).net i = none
  := by
  simp [NodeNet.serialIn, netConnectionSet, netConnectionClose, NetServer.modify]

@[simp]
theorem serialIn_ask (net : NodeNet) (j : Fin maxOpenConnections) :
  NodeNet.serialIn net.ask.2 j = net.serialIn j
  := rfl

theorem handleSuccRequest_moves (h : Moves R p q) (hR : ∀ d, q.net.AsksOn d → R d)
    (connection : ℤ) (arg : Option CbArg) :
  Moves R p (handleSuccRequest q connection arg)
  := by
  unfold handleSuccRequest
  split
  · apply h.withBuffer
    intro i b hi hb
    dsimp only
    have hread := (h.ask.setInput i (u32.fill q.ask.1.node.id b.input).2).emit
      (e := .handled connection (.findSuccessor (u32.fill q.ask.1.node.id b.input).1)
        b.input.length) rfl
    generalize hq : (q.ask.2.setInput i (u32.fill q.ask.1.node.id b.input).2).emit
      (.handled connection (.findSuccessor (u32.fill q.ask.1.node.id b.input).1)
        b.input.length) = q' at hread ⊢
    have hserial : q'.net.serialAt connection = some b.serial := by
      rw [hi, ← hq, Process.emit_net, NetServer.serialAt_coe, serialIn_setInput, Process.ask_net,
        serialIn_ask]
      simp [NodeNet.serialIn, hb]
    have hsame : Acts (fun cb => ∀ d, cb = .successorFoundForRemote d → q.net.AsksOn d) true q' q' :=
      Acts.refl q'
    apply hread.then_acts (nodeFindSuccessor_acts _ hsame _ _)
    · intro d hd
      exact hR d (hd d rfl)
    · intro cb hcb d hd
      rw [hd] at hcb
      exact absurd trivial hcb
    · intro d hd
      obtain rfl := FoundCb.successorFoundForRemote.inj hd
      refine ⟨i, hi, b.serial, ?_, hserial⟩
      simp [NodeNet.serialIn, hb]
  · exact h.crash

theorem handlePredRequest_moves (h : Moves R p q) (connection : ℤ) (arg : Option CbArg) :
  Moves R p (handlePredRequest q connection arg)
  := by
  unfold handlePredRequest
  split
  · apply h.withBuffer
    intro i b hi hb
    exact (h.emit (e := .handled connection .predecessor b.input.length) rfl).write i _
  · exact h.crash

theorem handleAliveRequest_moves (h : Moves R p q) (connection : ℤ) (arg : Option CbArg) :
  Moves R p (handleAliveRequest q connection arg)
  := by
  unfold handleAliveRequest
  split
  · apply h.withBuffer
    intro i b hi hb
    exact (h.ask.emit (e := .handled connection .alive b.input.length) rfl).write i _
  · exact h.crash

theorem handleNotifRequest_moves (h : Moves R p q) (connection : ℤ) (arg : Option CbArg) :
  Moves R p (handleNotifRequest q connection arg)
  := by
  unfold handleNotifRequest
  split
  · apply h.withBuffer
    intro i b hi hb
    dsimp only
    split
    · have hemit := h.ask.emit (e := .handled connection
        (.notify q.ask.1.node.id q.ask.1.node.port) b.input.length) rfl
      apply Moves.close
      exact (hemit.close connection).then_net (Advances.refl _) rfl
    · apply Moves.close
      refine Moves.then_net (q := (q.ask.2.setInput i _).emit _) ?_ (Advances.refl _) rfl
      exact (h.ask.setInput i _).emit (e := .handled connection (.notify _ _) b.input.length) rfl
  · exact h.crash

theorem handleNodeMessage_moves (h : Moves R p q) (connection : ℤ) (arg : Option CbArg) :
  Moves R p (handleNodeMessage q connection arg)
  := by
  unfold handleNodeMessage
  split
  · apply Moves.free
    exact h.emit (e := .nodeMessage ..) rfl
  · exact h.crash

theorem deferBody_moves (h : Moves R p q) (connection : ℤ) (type : UInt8) (len : UInt32) :
  Moves R p (deferBody q connection type len)
  := by
  have hread : ∀ cb, Moves R p
      { q with net := (netConnectionSetReadCb q.net connection (some cb)).2 } := by
    intro cb
    exact h.then_net (Advances.setReadCb q.net connection _) rfl
  rw [deferBody]
  dsimp only
  split_ifs
  · exact hread _
  · exact hread _
  · exact hread _
  · exact hread _
  · refine Moves.then_net (hread .handleNodeMessage) ?_ rfl
    apply (Advances.setEventCb _ connection (some .incomingEventMsgCb)).trans
    exact Advances.setCbArg _ connection rfl
  · exact h

theorem handleBody_moves (h : Moves R p q) (hR : ∀ d, q.net.AsksOn d → R d) (connection : ℤ)
    (type : UInt8) (len : UInt32) :
  Moves R p (handleBody q connection type len)
  := by
  rw [handleBody]
  split_ifs
  · exact handleSuccRequest_moves h hR connection _
  · exact handlePredRequest_moves h connection _
  · exact handleAliveRequest_moves h connection _
  · exact handleNotifRequest_moves h connection _
  · exact handleNodeMessage_moves h connection _
  · exact h

theorem incomingReadCb_moves (h : Moves R p q) (hR : ∀ d, q.net.AsksOn d → R d) (connection : ℤ)
    (arg : Option CbArg) :
  Moves R p (incomingReadCb q connection arg)
  := by
  unfold incomingReadCb
  split
  · apply h.withBuffer
    intro i b hi hb
    dsimp only
    have hheader := h.ask.setInput i (nodeParseMessageHeader q.ask.1.byte b.input).2
    split
    · have hdefer := deferBody_moves hheader connection
        (nodeParseMessageHeader q.ask.1.byte b.input).1.1
        (nodeParseMessageHeader q.ask.1.byte b.input).1.2
      refine hdefer.then_net ?_ rfl
      refine Advances.modifyBev _ i _ ?_
      intro b'
      rfl
    · apply handleBody_moves hheader
      intro d hd
      apply hR
      obtain ⟨j, hj, k, hk, hd⟩ := hd
      refine ⟨j, hj, k, ?_, hd⟩
      simpa using hk
  · exact h.crash

/-! ### Replies -/

theorem nodeFoundRemoteCb_of_bev {i : Fin maxOpenConnections} {b : Bufferevent}
    (hb : (p.net.connections i).bev = some b) (data : NodeFoundCbData) :
  nodeFoundRemoteCb p i.val (some (.found data))
    = nodeFound (((p.ask.2.emit (.replyRead b.serial)).close i.val).free i.val (.found data))
        { cb := data.cb
          node := (readFound (data.node, data.hops) p.ask.1.byte b.input).1
          hops := (readFound (data.node, data.hops) p.ask.1.byte b.input).2 }
  := by
  rw [nodeFoundRemoteCb]
  simp only [withBuffer_of_bev hb]

/-- The connection that a reply came on is closed, and its serial does not come back. -/
theorem not_serialIn_of_close {i : Fin maxOpenConnections} {s : ℕ} {net net' : NodeNet}
    (hs : net.serialIn i = some s) (hnum : net.Numbered)
    (h : Advances R (netConnectionClose net i.val) net') (j : Fin maxOpenConnections) :
  net'.serialIn j ≠ some s
  := by
  intro hj
  have hclose : netConnectionClose net i.val
      = net.modify i (fun c => { c with bev := none, netCbArg := none, sin := (0, 0) }) := by
    rw [netConnectionClose, netSlot_coe]
  rw [hclose] at h
  rcases h.serial hj with hj' | hlt
  · by_cases hij : j = i
    · subst hij
      simp [NodeNet.serialIn, NetServer.modify] at hj'
    · apply hij
      apply hnum.eq (s := s) _ hs
      simpa [NodeNet.serialIn, NetServer.modify, Function.update_of_ne hij] using hj'
  · exact absurd (hnum.lt hs) (not_lt.mpr hlt)

/-- What was read is handed over once, and the connection is closed for good. -/
theorem nodeFoundRemoteCb_spec {i : Fin maxOpenConnections} {b : Bufferevent}
    (hb : (p.net.connections i).bev = some b) (data : NodeFoundCbData) :
  let found := readFound (data.node, data.hops) p.ask.1.byte b.input
  let q := nodeFoundRemoteCb p i.val (some (.found data))
  (∃ es, q.log = p.log ++ .replyRead b.serial :: .found data.cb found.1 found.2 :: es
      ∧ ∀ e ∈ es, e.Internal false)
    ∧ Advances R p.net q.net ∧ (p.net.Numbered → ∀ j, q.net.serialIn j ≠ some b.serial)
  := by
  dsimp only
  rw [nodeFoundRemoteCb_of_bev hb]
  generalize hd : NodeFoundCbData.mk data.cb _ _ = data'
  generalize hq : ((p.ask.2.emit (.replyRead b.serial)).close i.val).free i.val _ = q
  have hask : Advances R p.net p.net.ask.2 := Advances.ask p.net
  have hclose : Advances R (netConnectionClose p.net.ask.2 i.val) q.net := by
    rw [← hq, Process.free_net, Process.close_net, Process.emit_net, Process.ask_net]
    exact Advances.dangle _ _ _
  have hsame : Acts (fun cb => ¬ cb.Relays) false (q.emit (.found data'.cb data'.node data'.hops))
      (q.emit (.found data'.cb data'.node data'.hops)) := Acts.refl _
  have hacts := nodeFound_acts_of_emit (fun _ h => h) hsame
  have hafter := hclose.trans (hacts.calls.advances (fun d hd => absurd trivial hd))
  obtain ⟨es, hes, hint⟩ := hacts.log
  have hserial : NodeNet.serialIn p.net i = some b.serial := by simp [NodeNet.serialIn, hb]
  have hserial' := (serialIn_ask p.net i).trans hserial
  refine ⟨⟨es, ?_, hint⟩, (hask.trans (Advances.close _ i.val)).trans hafter, ?_⟩
  · rw [hes, ← hq, ← hd]
    simp
  · intro hnum
    exact not_serialIn_of_close hserial' (hask.numbered hnum) hafter

theorem nodeFoundRemoteCb_happens_of_bev {i : Fin maxOpenConnections} {b : Bufferevent}
    (hb : (p.net.connections i).bev = some b) (data : NodeFoundCbData) :
  Happens R p (nodeFoundRemoteCb p i.val (some (.found data)))
  := by
  obtain ⟨⟨es, hes, hint⟩, hnet, hgone⟩ := nodeFoundRemoteCb_spec (R := R) hb data
  refine ⟨hnet, _, hes, Or.inr ⟨i, b.serial, ?_, ?_, hgone⟩⟩
  · have hnil := repliesRead_eq_nil hint
    unfold repliesRead at hnil ⊢
    simp only [List.filterMap_cons, hnil]
  · simp [NodeNet.serialIn, hb]

theorem nodeFoundRemoteCb_happens (p : NodeProcess) (connection : ℤ) (arg : Option CbArg) :
  Happens R p (nodeFoundRemoteCb p connection arg)
  := by
  by_cases hdata : ∃ data, arg = some (.found data)
  · obtain ⟨data, rfl⟩ := hdata
    rcases withBuffer_cases p connection with hcrash | ⟨i, b, rfl, hb⟩
    · rw [nodeFoundRemoteCb, hcrash]
      exact (Moves.refl p).crash.happens
    · exact nodeFoundRemoteCb_happens_of_bev hb data
  · unfold nodeFoundRemoteCb
    split
    · rename_i data
      exact absurd ⟨data, rfl⟩ hdata
    · exact (Moves.refl p).crash.happens

theorem nodeCheckNodeReply_moves (h : Moves R p q) (connection : ℤ) (arg : Option CbArg) :
  Moves R p (nodeCheckNodeReply q connection arg)
  := by
  unfold nodeCheckNodeReply
  split
  · apply h.withBuffer
    intro i b hi hb
    split
    · exact h.crash
    · apply Moves.free
      apply Moves.close
      have hsame : Acts (fun _ => False) true q q := Acts.refl q
      apply h.then_acts (nodeCheckResult_acts hsame _ _)
      intro d hd
      exact absurd hd not_false
  · exact h.crash

/-! ### Whatever happens -/

theorem runDataCb_happens (hR : ∀ d, p.net.AsksOn d → R d)
    (call : Option (DataCb × ℤ × Option CbArg)) :
  Happens R p (runDataCb p call)
  := by
  unfold runDataCb
  split
  · exact nodeFoundRemoteCb_happens p _ _
  · exact (nodeCheckNodeReply_moves (Moves.refl p) _ _).happens
  · exact (incomingReadCb_moves (Moves.refl p) hR _ _).happens
  · exact (handleSuccRequest_moves (Moves.refl p) hR _ _).happens
  · exact (handlePredRequest_moves (Moves.refl p) _ _).happens
  · exact (handleAliveRequest_moves (Moves.refl p) _ _).happens
  · exact (handleNotifRequest_moves (Moves.refl p) _ _).happens
  · exact (handleNodeMessage_moves (Moves.refl p) _ _).happens
  · exact (Moves.refl p).happens
  · exact (Moves.refl p).happens

theorem runEventCb_moves (p : NodeProcess) (what : UInt16)
    (call : Option (EventCb × ℤ × Option CbArg)) :
  Moves R p (runEventCb p what call)
  := by
  have h := Moves.refl (R := R) p
  unfold runEventCb
  split
  · exact h
  · unfold nodeNotifyRepEvent
    split
    · split_ifs
      · exact h.close _
      · exact h
    · exact h.crash
  · unfold nodeCheckNodeEvent
    split
    · split_ifs
      · apply Moves.free
        apply Moves.close
        have hsame : Acts (fun _ => False) true p p := Acts.refl p
        apply h.then_acts (nodeCheckResult_acts hsame _ _)
        intro d hd
        exact absurd hd not_false
      · exact (h.close _).free _ _
      · exact h
    · exact h.crash
  · unfold incomingEventCb
    split
    · split_ifs
      · exact h.close _
      · exact h
    · exact h.crash
  · unfold incomingEventMsgCb
    split
    · split_ifs
      · exact h.close _
      · exact h
    · exact h.crash
  · exact h
  · exact h

/-- What happens after bytes were put into an input buffer. -/
theorem Happens.of_setInput {i : Fin maxOpenConnections} {rest : List UInt8}
    (h : Happens R (p.setInput i rest) q) :
  Happens R p q
  := by
  have hset := (Moves.refl (R := R) p).setInput i rest
  obtain ⟨es, hes, hread⟩ := h.log
  refine ⟨hset.net.trans h.net, es, hes, ?_⟩
  rcases hread with hnil | ⟨j, s, hs, hserial, hgone⟩
  · exact Or.inl hnil
  · rw [serialIn_setInput] at hserial
    exact Or.inr ⟨j, s, hs, hserial, fun hnum => hgone (hset.net.numbered hnum)⟩

theorem arrive_happens (hR : ∀ d, p.net.AsksOn d → R d) (i : Fin maxOpenConnections)
    (bytes : List UInt8) :
  Happens R p (arrive p i bytes)
  := by
  unfold arrive
  split
  · split
    · exact (Moves.refl p).happens
    · dsimp only
      split
      · exact ((Moves.refl p).setInput i _).happens
      · refine Happens.of_setInput (runDataCb_happens ?_ _)
        intro d hd
        apply hR
        obtain ⟨j, hj, k, hk, hd⟩ := hd
        refine ⟨j, hj, k, ?_, hd⟩
        simpa using hk
  · exact (Moves.refl p).happens

theorem handle_happens (hR : ∀ d, p.net.AsksOn d → R d) (o : Occurrence) :
  Happens R p (o.handle p)
  := by
  have h := Moves.refl (R := R) p
  let ok : FoundCb → Prop := fun cb => ¬ cb.Relays
  have hok : ∀ cb, ¬ cb.Relays → ok cb := fun _ hcb => hcb
  have hrelay : ∀ d, ok (.successorFoundForRemote d) → R d := fun d hd => absurd trivial hd
  have hsame : Acts ok true p p := Acts.refl p
  cases o with
  | data i bytes => exact arrive_happens hR i bytes
  | drained i =>
    unfold Occurrence.handle
    dsimp only
    split
    · exact runDataCb_happens hR _
    · exact h.happens
  | event i what =>
    unfold Occurrence.handle
    dsimp only
    split
    · exact (runEventCb_moves p what _).happens
    · exact h.happens
  | accept peer =>
    apply Moves.happens
    exact h.then_net (listenEvtCb_advances p.net peer) rfl
  | stabilise =>
    apply Moves.happens
    exact h.then_acts (nodeNetworkStabalize_acts hok hsame) hrelay
  | fixFingers =>
    apply Moves.happens
    exact h.then_acts (nodeFixFingers_acts hok hsame) hrelay
  | checkPred =>
    apply Moves.happens
    exact h.then_acts (nodeCheckPredecessor_acts hsame) hrelay
  | checkSuccs =>
    apply Moves.happens
    exact h.then_acts (nodeCheckSuccessors_acts hsame) hrelay
  | updateSuccs =>
    apply Moves.happens
    exact h.then_acts (nodeUpdateSuccs_acts hok hsame) hrelay
  | setNodeMsgHandler cb cbArg =>
    apply Moves.happens
    exact h.then_acts (nodeSetNodeMsgHandler_acts hsame cb cbArg) hrelay
  | joined arg =>
    apply Moves.happens
    exact h.then_acts (nodeNetworkJoined_acts hok hsame arg) hrelay
  | networkCreate arg =>
    apply Moves.happens
    exact h.then_acts (nodeNetworkCreate_acts hsame arg) hrelay
  | networkJoin node arg =>
    apply Moves.happens
    exact h.then_acts (nodeNetworkJoin_acts hok hsame node arg) hrelay
  | findSuccessor id arg =>
    apply Moves.happens
    exact h.then_acts (nodeFindSuccessor_acts hok hsame id (hok (.app arg) not_false)) hrelay
  | connectAndSend msg readCb eventCb cbArg =>
    apply Moves.happens
    refine h.then_net (Advances.connectAndSend p.net msg _ _ _ ?_) rfl
    intro d hd
    cases cbArg <;> cases hd
  | send msg connection =>
    apply Moves.happens
    exact h.then_net (nodeSendMessage_advances p.net msg connection) rfl
  | create IP port =>
    apply Moves.happens
    exact h.then_net (netConnectionCreate_advances p.net IP port) rfl
  | setReadCb connection cb =>
    apply Moves.happens
    exact h.then_net (Advances.setReadCb p.net connection _) rfl
  | setWriteCb connection cb =>
    apply Moves.happens
    exact h.then_net (Advances.setWriteCb p.net connection _) rfl
  | setEventCb connection cb =>
    apply Moves.happens
    exact h.then_net (Advances.setEventCb p.net connection _) rfl
  | setCbArg connection cbArg =>
    apply Moves.happens
    refine h.then_net (Advances.setCbArg p.net connection ?_) rfl
    cases cbArg <;> rfl
  | close connection => exact (h.close connection).happens

/-- Whatever happens to a process advances its table, adds to its log, and reads one reply
at most. -/
theorem occur_happens (p : NodeProcess) (o : Occurrence) :
  Happens p.net.AsksOn p (p.occur o)
  := by
  rw [Process.occur]
  split
  · exact (Moves.refl p).happens
  · exact handle_happens (fun _ hd => hd) o

end
