import LibDht.Net.Heirs
import LibDht.Node.Outbox

/-!
# A lookup answers once

A call of `node_find_successor` is meant to do one of three things: to invoke its callback
once; to ask another node, and to invoke the callback at most once, when the reply to that is
read; or to fail, and never to invoke the callback. It does so for every identifier but the
node's own, for which the callback is invoked twice, as long as no later connection in the slot
of the request inherits the function that reads the reply.
-/

/-- The callbacks that nodes were handed to, in order. -/
def founds (log : List Event) : List FoundCb :=
  log.filterMap fun
    | .found cb _ _ => some cb
    | _ => none

/-- The requests that were tried, with their results, in order. -/
def requestsTried (log : List Event) : List (FoundCb × ℤ) :=
  log.filterMap fun
    | .asked cb rc => some (cb, rc)
    | _ => none

/-- The slot `i` holds the connection `s`, on which the successor of `id` was asked for, and
the reply is to be handed to `cb`. -/
structure NodeNet.Awaits (net : NodeNet) (i : Fin maxOpenConnections) (s : ℕ) (id : HashType)
    (cb : FoundCb) : Prop where
  bev : ∃ b, (net.connections i).bev = some b ∧ b.serial = s ∧ b.enabled = true
    ∧ b.output = (Request.findSuccessor id).wire
  readCb : (net.connections i).readCb = some .nodeFoundRemoteCb
  arg : ∃ data, (net.connections i).upperCbArg = some (.found data) ∧ data.cb = cb

/-- Every connection on which something can arrive was there before, with all that is in its
slot. -/
def NodeNet.NothingOpened (net net' : NodeNet) : Prop :=
  ∀ i b, (net'.connections i).bev = some b → b.enabled = true →
    net'.connections i = net.connections i

/-- In the run `os` the callback `cb` is invoked at most once for the connection `s` in the slot
`i`, when the reply on it is read. -/
def InvokedAtMostOnce (i : Fin maxOpenConnections) (s : ℕ) (cb : FoundCb) (p : NodeProcess)
    (os : List Occurrence) : Prop :=
  founds (loggedOn i s p os) = [] ∧ repliesRead (loggedOn i s p os) = []
    ∨ founds (loggedOn i s p os) = [cb] ∧ repliesRead (loggedOn i s p os) = [s]

/-- In the run `os` no callback is invoked for the connection `s`, if it was left in the slot `i`,
unless the application does something to it. -/
def NeverInvoked (i : Fin maxOpenConnections) (s : ℕ) (p : NodeProcess) (os : List Occurrence) :
    Prop :=
  NodeNet.serialIn p.net i = some s → LeftAlone i s p os → founds (loggedOn i s p os) = []

/-- The slot reads replies to the requests for a node. -/
def NodeSlot.ReadsNode (c : NodeSlot) : Prop :=
  c.readCb = some .nodeFoundRemoteCb

/-- In the run `os` no connection that the application makes in the slot `i` has data read as
the reply to a request of the node. -/
def NoStrayReply (i : Fin maxOpenConnections) (p : NodeProcess) (os : List Occurrence) : Prop :=
  ∀ before bytes after, os = before ++ .data i bytes :: after →
    (ConnectionEvent.data bytes).Due (p.runIo before) i → AppMade p before i →
      ¬ NodeSlot.ReadsNode ((p.runIo before).net.connections i)

/-- In the run `os` the application makes no connection in the slot `i` that inherits the function
that reads the reply to a request of the node, and on which data is due. -/
def NoReaderInherited (i : Fin maxOpenConnections) (p : NodeProcess) (os : List Occurrence) :
    Prop :=
  ∀ before bytes after, os = before ++ .data i bytes :: after →
    (ConnectionEvent.data bytes).Due (p.runIo before) i →
      ¬ Inherits NodeSlot.ReadsNode [.readCb] p before i

/-- What a call that is to answer once makes of a process, with the result of the call: it
invokes its callback once; or it asks another node, and the callback is invoked at most once
in the run `os`, when the reply to that is read; or it fails, and the callback is not invoked in
the run `os`. -/
def Settles (p : NodeProcess) (id : HashType) (cb : FoundCb) (os : List Occurrence)
    (r : ℤ × NodeProcess) : Prop :=
  ∃ es, r.2.log = p.log ++ es
    ∧ (r.1 = 0 ∧ founds es = [cb] ∧ requestsTried es = []
      ∨ r.1 = 0 ∧ founds es = [] ∧ requestsTried es = [(cb, 0)]
        ∧ (∃ i, netEmptyConnectionSlot p.net = some i ∧ r.2.net.Awaits i p.net.nextSerial id cb
          ∧ InvokedAtMostOnce i p.net.nextSerial cb r.2 os ∧ NoStrayReply i r.2 os)
      ∨ r.1 < 0 ∧ founds es = [] ∧ requestsTried es = [(cb, r.1)]
        ∧ p.net.NothingOpened r.2.net
        ∧ ∀ i, netEmptyConnectionSlot p.net = some i →
          NeverInvoked i p.net.nextSerial r.2 os ∧ NoStrayReply i r.2 os)

/-- A lookup answers once, whatever happens to the process after it. -/
def AnswersOnce (p : NodeProcess) (id : HashType) (cb : FoundCb) (os : List Occurrence) : Prop :=
  Settles p id cb os (nodeFindSuccessor p id cb)

@[simp]
theorem founds_append (l l' : List Event) :
  founds (l ++ l') = founds l ++ founds l'
  := List.filterMap_append ..

@[simp]
theorem requestsTried_append (l l' : List Event) :
  requestsTried (l ++ l') = requestsTried l ++ requestsTried l'
  := List.filterMap_append ..

/-! ### The reply to a request -/

section

variable {p q : NodeProcess} {i : Fin maxOpenConnections} {s : ℕ} {cb : FoundCb} {o : Occurrence}
  {os : List Occurrence}

/-- If the slot holds the connection `s`, then its argument is not the node, and a reply on it is
handed to `cb`. -/
def NodeSlot.HandsTo (s : ℕ) (cb : FoundCb) (c : NodeSlot) : Prop :=
  c.bev.map Bufferevent.serial = some s → ∀ arg ∈ c.upperCbArg, arg ≠ .self
    ∧ ∀ data, arg = .found data → data.cb = cb

theorem NodeSlot.HandsTo.change {who : Origin} {n : ℕ} {c c' : NodeSlot} (h : c.HandsTo s cb)
    (hchange : SlotChange who n c c') (hlt : s < n) :
  c'.HandsTo s cb
  := by
  intro hs
  have hold := hchange.serial_of hlt hs
  have h := h hold
  cases hchange with
  | modifyBev hf => exact h
  | close => cases hs
  | request i hb msg hrequest hwho =>
    have hs := Option.some.inj hs
    omega
  | accept i hb hwho =>
    have hs := Option.some.inj hs
    dsimp only at hs
    omega
  | foreign i hb msg readCb eventCb cbArg hwho =>
    have hs := Option.some.inj hs
    omega
  | setReadCb hcb => exact h
  | setWriteCb cb => exact h
  | setEventCb cb => exact h
  | setCbArg cbArg =>
    intro arg harg
    obtain ⟨k, -, rfl⟩ := Option.map_eq_some_iff.mp harg
    constructor
    · intro heq
      cases heq
    · intro data heq
      cases heq
  | defer type len =>
    rintro arg ⟨⟩
    constructor
    · intro heq
      cases heq
    · intro data heq
      cases heq
  | @dangle arg' hfreed =>
    intro arg harg
    rw [NodeNet.dangle] at harg
    split_ifs at harg
    · obtain rfl := Option.some.inj harg
      constructor
      · intro heq
        cases heq
      · intro data heq
        cases heq
    · exact h arg harg

/-- Nothing is handed over on the way from `p` to `q`, or the reply on the connection `s` is read and
handed to `cb`, and the connection is closed. -/
def HandsOver (s : ℕ) (cb : FoundCb) (p q : NodeProcess) : Prop :=
  ∃ es, q.log = p.log ++ es ∧ (founds es = [] ∧ repliesRead es = []
    ∨ founds es = [cb] ∧ repliesRead es = [s]
      ∧ (p.net.Numbered → ∀ j, NodeNet.serialIn q.net j ≠ some s))

theorem handsOver_of_log (h : q.log = p.log) :
  HandsOver s cb p q
  := ⟨[], by rw [h, List.append_nil], Or.inl ⟨rfl, rfl⟩⟩

theorem founds_eq_nil {l : List Event} (h : ∀ e ∈ l, e.Internal false) :
  founds l = []
  := by
  apply List.filterMap_eq_nil_iff.mpr
  intro e he
  cases e with
  | found c n k => cases h _ he
  | _ => rfl

/-- The result of a probe hands no node over. -/
theorem handsOver_of_checked {c : CheckCb} {success : Bool}
    (h : q.log = (nodeCheckResult p c success).log) :
  HandsOver s cb p q
  := by
  have hacts : Acts (fun _ => False) false p (nodeCheckResult p c success) :=
    nodeCheckResult_acts (Acts.refl p) c success
  obtain ⟨es, hes, hint⟩ := hacts.log
  exact ⟨es, h.trans hes, Or.inl ⟨founds_eq_nil hint, repliesRead_eq_nil hint⟩⟩

/-- A data callback is called on the connection `s`, whose argument hands to `cb`. -/
theorem runDataCb_handsOver {b : Bufferevent} (hb : (p.net.connections i).bev = some b)
    (hserial : b.serial = s) (call : Option DataCb) {arg : Option CbArg}
    (harg : ∀ a ∈ arg, a ≠ .self ∧ ∀ data, a = .found data → data.cb = cb) :
  HandsOver s cb p (runDataCb p (call.map fun cb => (cb, (i.val : ℤ), arg)))
  := by
  cases call with
  | none => exact handsOver_of_log rfl
  | some call =>
    rw [Option.map_some]
    cases arg with
    | none => cases call <;> exact handsOver_of_log rfl
    | some a =>
      obtain ⟨hself, hfound⟩ := harg a rfl
      cases call with
      | nodeFoundRemoteCb =>
        cases a with
        | found data =>
          obtain rfl := hfound data rfl
          subst hserial
          obtain ⟨⟨es, hes, hint⟩, -, hgone⟩ :=
            nodeFoundRemoteCb_spec (R := fun _ => True) hb data
          refine ⟨_, hes, Or.inr ⟨?_, ?_, hgone⟩⟩
          · exact congrArg (data.cb :: ·) (founds_eq_nil hint)
          · have hnil := repliesRead_eq_nil hint
            unfold repliesRead at hnil ⊢
            simp only [List.filterMap_cons, hnil]
        | _ => exact handsOver_of_log rfl
      | nodeCheckNodeReply =>
        cases a with
        | check c =>
          rw [runDataCb, nodeCheckNodeReply, withBuffer_of_bev hb]
          split
          · exact handsOver_of_log rfl
          · apply handsOver_of_checked
            rw [Process.free_log, Process.close_log]
        | _ => exact handsOver_of_log rfl
      | handleNodeMessage =>
        cases a with
        | msg type len => exact ⟨[.nodeMessage _ _ _ _ _ _], rfl, Or.inl ⟨rfl, rfl⟩⟩
        | _ => exact handsOver_of_log rfl
      | app k => exact handsOver_of_log rfl
      | _ =>
        cases a with
        | self => exact absurd rfl hself
        | _ => exact handsOver_of_log rfl

theorem runEventCb_handsOver (p : NodeProcess) (what : UInt16)
    (call : Option (EventCb × ℤ × Option CbArg)) :
  HandsOver s cb p (runEventCb p what call)
  := by
  unfold runEventCb
  split
  · exact handsOver_of_log rfl
  · unfold nodeNotifyRepEvent
    split
    · split_ifs <;> exact handsOver_of_log rfl
    · exact handsOver_of_log rfl
  · unfold nodeCheckNodeEvent
    split
    · split_ifs
      · exact handsOver_of_checked rfl
      · exact handsOver_of_log rfl
      · exact handsOver_of_log rfl
    · exact handsOver_of_log rfl
  · unfold incomingEventCb
    split
    · split_ifs <;> exact handsOver_of_log rfl
    · exact handsOver_of_log rfl
  · unfold incomingEventMsgCb
    split
    · split_ifs <;> exact handsOver_of_log rfl
    · exact handsOver_of_log rfl
  · exact handsOver_of_log rfl
  · exact handsOver_of_log rfl

/-- What happens on a connection that waits for a reply: nothing is handed over, or the reply is
read and handed over, and the connection is closed. -/
theorem occur_handsOver (hslot : o.slot = some i) (hs : NodeNet.serialIn p.net i = some s)
    (harg : NodeSlot.HandsTo s cb (p.net.connections i)) :
  HandsOver s cb p (p.occur o)
  := by
  obtain ⟨b, hb, hserial⟩ := Option.map_eq_some_iff.mp hs
  have harg := harg hs
  cases o with
  | data j bytes =>
    obtain rfl := Option.some.inj hslot
    rcases occur_data_cases p j bytes with heq | ⟨input, heq | heq⟩
    · rw [heq]
      exact handsOver_of_log rfl
    · rw [heq]
      exact handsOver_of_log rfl
    · rw [heq]
      have hset : Advances (fun _ => True) p.net (p.setInput j input).net :=
        Advances.modifyBev p.net j _ fun _ => rfl
      have hs' := (serialIn_setInput p j j input).trans hs
      obtain ⟨b', hb', hserial'⟩ := Option.map_eq_some_iff.mp hs'
      obtain ⟨es, hes, hways⟩ :=
        runDataCb_handsOver hb' hserial' (p.net.connections j).readCb harg
      refine ⟨es, hes, hways.imp_right ?_⟩
      rintro ⟨hfounds, hread, hgone⟩
      exact ⟨hfounds, hread, fun hnum => hgone (hset.numbered hnum)⟩
  | drained j =>
    obtain rfl := Option.some.inj hslot
    rw [Process.occur]
    split
    · exact handsOver_of_log rfl
    · rw [Occurrence.handle]
      split
      · rw [netConnectionWriteCb_coe]
        exact runDataCb_handsOver hb hserial _ harg
      · exact handsOver_of_log rfl
  | event j what =>
    obtain rfl := Option.some.inj hslot
    rcases occur_event_cases p j what with heq | heq
    · rw [heq]
      exact handsOver_of_log rfl
    · rw [heq]
      exact runEventCb_handsOver p what _
  | _ => cases hslot

/-- Whatever happens, the callback of a request is invoked at most once, when the reply is read. -/
theorem invokedAtMostOnce (hnum : p.net.Numbered) (hlt : s < p.net.nextSerial)
    (harg : ∀ j, NodeSlot.HandsTo s cb (p.net.connections j)) (os : List Occurrence) :
  InvokedAtMostOnce i s cb p os
  := by
  -- the induction carries whom the argument of the connection hands to
  induction os generalizing p with
  | nil => exact Or.inl ⟨rfl, rfl⟩
  | cons o os ih =>
    have hnet := (occur_happens p o).net
    have hlt' := lt_of_lt_of_le hlt hnet.nextSerial
    have harg' := (occur_evolves p o).forall_slot
      (fun n hn _ _ hchange hc => NodeSlot.HandsTo.change hc hchange (lt_of_lt_of_le hlt hn)) harg
    have hrest := ih (hnet.numbered hnum) hlt' harg'
    by_cases hon : o.slot = some i ∧ NodeNet.serialIn p.net i = some s
    · obtain ⟨hslot, hs⟩ := hon
      obtain ⟨es, hes, ⟨hfounds, hread⟩ | ⟨hfounds, hread, hgone⟩⟩ :=
        occur_handsOver hslot hs (harg i)
      · rw [InvokedAtMostOnce, loggedOn_cons hslot hs hes, founds_append, repliesRead_append,
          hfounds, hread]
        exact hrest
      · right
        rw [loggedOn_cons hslot hs hes, loggedOn_gone hlt' (hgone hnum i), List.append_nil]
        exact ⟨hfounds, hread⟩
    · rw [InvokedAtMostOnce, loggedOn, if_neg hon, List.nil_append]
      exact hrest

theorem NodeNet.Awaits.handsTo {net : NodeNet} {id : HashType} (h : net.Awaits i s id cb)
    (hnum : net.Numbered) (j : Fin maxOpenConnections) :
  NodeSlot.HandsTo s cb (net.connections j)
  := by
  intro hs arg harg
  obtain ⟨b, hb, hserial, -⟩ := h.bev
  obtain rfl := hnum.eq (i := j) (j := i) hs (by rw [NodeNet.serialIn, hb, Option.map_some, hserial])
  obtain ⟨data, hdata, hcb⟩ := h.arg
  obtain rfl := Option.some.inj (hdata.symm.trans harg)
  constructor
  · intro heq
    cases heq
  · rintro data' ⟨⟩
    exact hcb

/-! ### What is inherited -/

/-- The function that reads a reply is set by requests alone. -/
theorem readsNode_back {who : Origin} {n : ℕ} {c c' : NodeSlot} (hchange : SlotChange who n c c')
    (hlt : s < n) (hs : c'.bev.map Bufferevent.serial = some s) (hreads : c'.ReadsNode) :
  c.ReadsNode
  := by
  have htaken : ∀ {b : Bufferevent}, b.serial = n → ¬ some b.serial = some s := by
    intro b hb heq
    have hs := Option.some.inj heq
    omega
  cases hchange with
  | close => cases hs
  | request i hb msg hrequest hwho => exact absurd hs (htaken hb)
  | accept i hb hwho => exact absurd hs (htaken hb)
  | foreign i hb msg readCb eventCb cbArg hwho => exact absurd hs (htaken hb)
  | setReadCb hcb => exact absurd trivial (hcb _ hreads)
  | defer type len => cases hreads
  | dangle hfreed =>
    rw [NodeNet.dangle] at hreads
    split_ifs at hreads <;> exact hreads
  | _ => exact hreads

/-- Events and data on a connection that reads a reply leave its callback, or close it. -/
theorem readsNode_of_slot (hp : Steady p.net) (hslot : o.slot = some i)
    (hreads : NodeSlot.ReadsNode (p.net.connections i)) (hrun : (p.occur o).net.crashed = false)
    (hs : NodeNet.serialIn p.net i = some s)
    (hs' : NodeNet.serialIn (p.occur o).net i = some s) :
  NodeSlot.ReadsNode ((p.occur o).net.connections i)
  := by
  cases o with
  | data j bytes =>
    obtain rfl := Option.some.inj hslot
    rcases occur_data_cases p j bytes with heq | ⟨input, heq | heq⟩
    · rwa [heq]
    · rw [heq]
      exact Eq.trans (same_setInput p j input .readCb) hreads
    · rw [hreads, Option.map_some] at heq
      rw [heq] at hrun hs'
      cases harg : (p.net.connections j).upperCbArg with
      | none =>
        rw [harg] at hrun
        cases hrun
      | some a =>
        rw [harg] at hrun hs'
        cases a with
        | found data =>
          have hset : Advances (fun _ => True) p.net (p.setInput j input).net :=
            Advances.modifyBev p.net j _ fun _ => rfl
          obtain ⟨b, hb, hserial⟩ :=
            Option.map_eq_some_iff.mp ((serialIn_setInput p j j input).trans hs)
          obtain ⟨-, -, hgone⟩ := nodeFoundRemoteCb_spec (R := fun _ => True) hb data
          rw [hserial] at hgone
          exact absurd hs' (hgone (hset.numbered hp.numbered) j)
        | _ => simp [runDataCb, nodeFoundRemoteCb, Process.crash, NetServer.crash] at hrun
  | drained j =>
    obtain rfl := Option.some.inj hslot
    rwa [occur_drained (hp.writes j)]
  | event j what =>
    obtain rfl := Option.some.inj hslot
    rcases occur_event_cases p j what with heq | heq
    · rwa [heq]
    · have hcloses := runEventCb_closes p j what
      dsimp only at hcloses
      rw [← heq] at hcloses
      rcases hcloses with hnone | hcrashed | hsame
      · exact absurd hnone (serialIn_ne_none hs')
      · rw [hcrashed] at hrun
        cases hrun
      · rwa [hsame]
  | _ => cases hslot

/-- The function that reads a reply is inherited. -/
theorem readsNode_inheritable :
  Inheritable NodeSlot.ReadsNode [.readCb]
  := by
  constructor
  · intro p o i horigin hnone hmade
    obtain ⟨b, msg, readCb, eventCb, cbArg, heq, hread, -⟩ := occur_makes horigin hnone hmade
    rw [heq]
    cases readCb <;> simp [NodeSlot.ReadsNode, taken, hread]
  · intro p o i s hp hrun hs hs'
    have hlt := hp.numbered.lt hs
    constructor
    · intro hreads
      constructor
      · refine (occur_back hp ?_ hs' hreads).1
        intro n c c' hchange hn _ hserial hc
        have hlt' := lt_of_lt_of_le hlt hn
        exact ⟨readsNode_back hchange hlt' hserial hc, hchange.serial_of hlt' hserial⟩
      · intro f hf hset
        obtain rfl := List.mem_singleton.mp hf
        rw [Process.occur_of_running (running_of_occur hrun)] at hreads
        cases o with
        | setReadCb connection cb =>
          simp [NodeSlot.ReadsNode, Occurrence.handle, netConnectionSetReadCb, netConnectionSet,
            hset.2, NetServer.modify] at hreads
        | setWriteCb connection cb => cases hset.1
        | setEventCb connection cb => cases hset.1
        | setCbArg connection cbArg => cases hset.1
        | _ => exact absurd hset not_false
    · rintro ⟨hreads, hset⟩
      by_cases hslot : o.slot = some i
      · exact readsNode_of_slot hp hslot hreads hrun hs hs'
      · have hsame : SlotField.readCb.Same (p.net.connections i)
            ((p.occur o).net.connections i) := by
          by_cases hnamed : o.named = some i
          · exact occur_same_of_named hnamed (hset _ List.mem_cons_self) (serialIn_ne_none hs')
          · exact occur_same_of_elsewhere hslot hnamed (serialIn_ne_none hs)
        exact Eq.trans hsame hreads

/-- No data is read as a reply by mistake exactly when the function that reads it is not
inherited. -/
theorem noStrayReply_iff (hp : Steady p.net) :
  NoStrayReply i p os ↔ NoReaderInherited i p os
  := by
  have hiff : ∀ (bytes : List UInt8) before, (ConnectionEvent.data bytes).Due (p.runIo before) i →
      (AppMade p before i ∧ NodeSlot.ReadsNode ((p.runIo before).net.connections i)
        ↔ Inherits NodeSlot.ReadsNode [.readCb] p before i) := by
    intro bytes before hdue
    exact readsNode_inheritable.inherits_iff hp hdue.serialIn.1
  constructor
  · intro hstray before bytes after heq hdue hinherits
    obtain ⟨hmade, hreads⟩ := (hiff bytes before hdue).mpr hinherits
    exact hstray before bytes after heq hdue hmade hreads
  · intro hnone before bytes after heq hdue hmade hreads
    exact hnone before bytes after heq hdue ((hiff bytes before hdue).mp ⟨hmade, hreads⟩)

end

/-! ### The request -/

/-- A slot that changes and has nothing arrive on it. -/
theorem NodeNet.nothingOpened_update {net net' : NodeNet} {i : Fin maxOpenConnections}
    {c : NetConnection DataCb EventCb CbArg}
    (hconn : net'.connections = Function.update net.connections i c)
    (hc : ∀ b, c.bev = some b → b.enabled = false) :
  net.NothingOpened net'
  := by
  intro j b hb henabled
  rw [hconn] at hb
  by_cases hj : j = i
  · subst hj
    rw [Function.update_self] at hb
    rw [hc b hb] at henabled
    cases henabled
  · rw [hconn, Function.update_of_ne hj]

/-- A connection that was made and on which nothing can arrive is not connected. -/
theorem NodeNet.NothingOpened.dormant {net net' : NodeNet} (h : net.NothingOpened net')
    (hnum : net.Numbered) {i : Fin maxOpenConnections}
    (hs : NodeNet.serialIn net' i = some net.nextSerial) :
  Dormant net' i net.nextSerial
  := by
  obtain ⟨b, hb, hserial⟩ := Option.map_eq_some_iff.mp hs
  refine ⟨b, hb, hserial, ?_⟩
  by_contra henabled
  have hsame := h i b hb (Bool.eq_true_of_not_eq_false henabled)
  have hold : NodeNet.serialIn net i = some net.nextSerial := by
    rw [← hs, NodeNet.serialIn, NodeNet.serialIn, hsame]
  exact Nat.lt_irrefl _ (hnum.lt hold)

/-- The connection that the request for a successor was sent on gets the identifier too. -/
theorem NodeNet.awaits_write {net : NodeNet} {i : Fin maxOpenConnections} {b : Bufferevent}
    {n : NodeInfo} {data : NodeFoundCbData} (id : HashType)
    {c : NetConnection DataCb EventCb CbArg}
    (hc : net.connections i = taken c i
      { b with output := ((Request.findSuccessor id).message n).text, enabled := true }
      ((Request.findSuccessor id).message n) (some .nodeFoundRemoteCb)
      (some .nodeRemoteFindEvent) (some (.found data))) :
  NodeNet.Awaits (net.write i (Request.findSuccessor id).body) i b.serial id data.cb
  := by
  have hslot : (net.write i (Request.findSuccessor id).body).connections i
      = { net.connections i with
          bev := (net.connections i).bev.map fun b =>
            { b with output := b.output ++ (Request.findSuccessor id).body } } := by
    simp [NetServer.write, NetServer.modifyBev, NetServer.modify]
  rw [hc] at hslot
  constructor
  · rw [hslot]
    exact ⟨_, rfl, rfl, rfl, rfl⟩
  · rw [hslot]
    rfl
  · rw [hslot]
    exact ⟨data, rfl, rfl⟩

/-- The request is sent on a new connection, or fails. -/
theorem NodeNet.findSuccessorRemote_cases (net : NodeNet) (n : NodeInfo) (id : HashType)
    (cb : FoundCb) :
  let r := net.findSuccessorRemote n id cb
  (r.1 = 0 ∧ r.2.nextSerial = net.nextSerial + 1
      ∧ ∃ i, netEmptyConnectionSlot net = some i ∧ r.2.Awaits i net.nextSerial id cb)
    ∨ (r.1 < 0 ∧ net.NothingOpened r.2)
  := by
  have hneg : (-1 : ℤ) < 0 := by decide
  rw [findSuccessorRemote]
  dsimp only
  have hattempt := nodeConnectAndSendMessage_attempt net.ask.2
    ((Request.findSuccessor id).message n) (some .nodeFoundRemoteCb) (some .nodeRemoteFindEvent)
    (some (.found { cb := cb, node := net.ask.1.node, hops := net.ask.1.hops }))
  generalize nodeConnectAndSendMessage net.ask.2 _ _ _ _ = sent at hattempt ⊢
  cases hattempt with
  | none calls =>
    right
    rw [if_pos hneg]
    exact ⟨hneg, fun i b hb _ => rfl⟩
  | @lost i hi calls =>
    right
    rw [if_pos hneg]
    refine ⟨hneg, nothingOpened_update rfl ?_⟩
    intro b hb
    cases hb
  | @refused i hi calls =>
    right
    rw [if_pos hneg]
    refine ⟨hneg, nothingOpened_update rfl ?_⟩
    intro b hb
    cases hb
  | @unsent i hi calls =>
    right
    rw [if_pos hneg]
    refine ⟨hneg, nothingOpened_update rfl ?_⟩
    intro b hb
    obtain rfl := Option.some.inj hb
    rfl
  | @sent i hi calls =>
    left
    have hpos : ¬ ((i.val : ℤ) < 0) := by omega
    rw [if_neg hpos]
    generalize hnet : NetServer.mk (Function.update net.ask.2.connections i _) _ _ _ _ = net'
    have hslot := congrArg (fun net => net.connections i) hnet
    simp only [Function.update_self] at hslot
    have hbev := congrArg NetConnection.bev hslot
    simp only [netConnectionGetBuffer, netSlot_coe, ← hbev, taken]
    refine ⟨trivial, ?_, i, (netEmptyConnectionSlot_ask net).symm.trans hi, ?_⟩
    · rw [← hnet]
      rfl
    · exact awaits_write (b := net.ask.2.freshBev n.IP) id hslot.symm

/-! ### The call -/

/-- A passive callback is handed the node, and nothing else goes to the log. -/
theorem nodeFound_log {ν : Type} [Remote ν] {cb : FoundCb} (hcb : cb.Passive) (p : Process ν)
    (n : NodeInfo) (hops : Int16) :
  (nodeFound p { cb := cb, node := n, hops := hops }).log = p.log ++ [.found cb n hops]
  := by
  cases cb with
  | fingerUpdate k => rfl
  | successorFoundForRemote d => rfl
  | app a => rfl
  | freed => rfl
  | _ => exact absurd hcb not_false

section

variable {p q : NodeProcess} {id : HashType} {cb : FoundCb} {os : List Occurrence}

/-- A lookup of the node's own identifier invokes its callback twice. -/
theorem not_answersOnce_self (hcb : cb.Passive) (p : NodeProcess) (os : List Occurrence) :
  ¬ AnswersOnce p p.node.self.id cb os
  := by
  rw [AnswersOnce, nodeFindSuccessor_self cb rfl]
  rintro ⟨es, hes, hways⟩
  simp only [Process.unlock_log, nodeFound_log hcb, nodeFound_log hcb.called, Process.touch_log,
    List.append_assoc, List.append_cancel_left_eq] at hes
  have htwice : founds es = [cb, cb.called] := by
    rw [← hes]
    rfl
  rcases hways with ⟨-, hfounds, -⟩ | ⟨-, hfounds, -⟩ | ⟨-, hfounds, -⟩ <;>
    rw [htwice] at hfounds <;> simp at hfounds

/-- A request to another node settles the lookup, when no data is read as the reply to it by
mistake. -/
theorem nodeFindSuccessorRemote_settles (hnum : q.net.Numbered) (n : NodeInfo) (id : HashType)
    (cb : FoundCb) (os : List Occurrence)
    (hstray : ∀ i, netEmptyConnectionSlot q.net = some i →
      NoStrayReply i (nodeFindSuccessorRemote q n id cb).2 os) :
  Settles q id cb os (nodeFindSuccessorRemote q n id cb)
  := by
  have hadvances : Advances (fun _ => True) q.net (q.net.findSuccessorRemote n id cb).2 :=
    NodeNet.findSuccessorRemote_advances q.net n id (fun _ _ => trivial)
  have hnum' := hadvances.numbered hnum
  refine ⟨[.asked cb (q.net.findSuccessorRemote n id cb).1], rfl, Or.inr ?_⟩
  rcases NodeNet.findSuccessorRemote_cases q.net n id cb with
    ⟨hrc, hnext, i, hi, hawaits⟩ | ⟨hrc, hnone⟩
  · left
    refine ⟨hrc, rfl, ?_, i, hi, hawaits, ?_, hstray i hi⟩
    · rw [hrc]
      rfl
    · have hlt : q.net.nextSerial < (q.net.findSuccessorRemote n id cb).2.nextSerial := by omega
      exact invokedAtMostOnce hnum' hlt (hawaits.handsTo hnum') os
  · right
    refine ⟨hrc, rfl, rfl, hnone, ?_⟩
    intro i hi
    refine ⟨?_, hstray i hi⟩
    intro hs happ
    exact congrArg founds ((hnone.dormant hnum hs).loggedOn happ)

/-- Reading the successor array settles nothing. -/
theorem founds_of_reads {us : List Event} {is : List ℤ} (hreads : ∀ e ∈ us, e.Reads is) :
  founds us = [] ∧ requestsTried us = []
  := by
  constructor
  · apply List.filterMap_eq_nil_iff.mpr
    intro e he
    cases e with
    | found c n k => exact absurd (hreads _ he) not_false
    | _ => rfl
  · apply List.filterMap_eq_nil_iff.mpr
    intro e he
    cases e with
    | asked c rc => exact absurd (hreads _ he) not_false
    | _ => rfl

theorem Settles.of_reads {r : ℤ × NodeProcess} (h : Settles q id cb os r) (hnet : q.net = p.net)
    {us : List Event} (hus : q.log = p.log ++ us) {is : List ℤ} (hreads : ∀ e ∈ us, e.Reads is) :
  Settles p id cb os r
  := by
  obtain ⟨hfounds, htried⟩ := founds_of_reads hreads
  obtain ⟨es, hes, hways⟩ := h
  rw [hnet] at hways
  refine ⟨us ++ es, ?_, ?_⟩
  · rw [hes, hus, List.append_assoc]
  · rw [founds_append, requestsTried_append, hfounds, htried]
    exact hways

/-- A call that is settled and has asked another node leaves no stray replies. -/
theorem Settles.noStrayReply {r : ℤ × NodeProcess} (h : Settles p id cb os r) {es : List Event}
    (hes : r.2.log = p.log ++ es) (htried : requestsTried es ≠ []) {i : Fin maxOpenConnections}
    (hi : netEmptyConnectionSlot p.net = some i) :
  NoStrayReply i r.2 os
  := by
  obtain ⟨es', hes', hways⟩ := h
  obtain rfl := List.append_cancel_left (hes.symm.trans hes')
  rcases hways with ⟨-, -, hnil⟩ | ⟨-, -, -, j, hj, -, -, hstray⟩ | ⟨-, -, -, -, hall⟩
  · exact absurd hnil htried
  · obtain rfl := Option.some.inj (hj.symm.trans hi)
    exact hstray
  · exact (hall i hi).2

/-- A lookup that the node answers itself answers once. -/
theorem answersOnce_of_answers (hcb : cb.Passive) (hne : id ≠ p.node.self.id)
    (hanswers : p.node.Answers id) (os : List Occurrence) :
  AnswersOnce p id cb os
  := by
  rw [AnswersOnce, nodeFindSuccessor_answer cb (Ne.symm hne) hanswers]
  have hfound := nodeFound_log hcb (p.lock.touch (nodeFirstAliveSucc p.node)) p.node.firstSucc 0
  generalize nodeFound (p.lock.touch (nodeFirstAliveSucc p.node)) _ = q at hfound ⊢
  have hlog : q.unlock.log = p.log ++ [.lock p.succsLock, .succIndex (nodeFirstAliveSucc p.node),
      .found cb p.node.firstSucc 0, .unlock q.succsLock] := by
    simp [hfound]
  exact ⟨_, hlog, Or.inl ⟨rfl, rfl, rfl⟩⟩

/-- A lookup that is forwarded answers once exactly when no later connection in the slot of its
request inherits the function that reads the reply. -/
theorem answersOnce_forward_iff (hp : Steady p.net) (hne : id ≠ p.node.self.id)
    (hanswers : ¬ p.node.Answers id) :
  AnswersOnce p id cb os ↔ ∀ i, netEmptyConnectionSlot p.net = some i →
    NoReaderInherited i (nodeFindSuccessor p id cb).2 os
  := by
  obtain ⟨q, -, hnet, ⟨us, hus, hreads⟩, heq⟩ :=
    nodeFindSuccessor_forward cb (Ne.symm hne) hanswers
  have hq : Steady q.net := hnet ▸ hp
  have hafter : ∀ n, Steady (nodeFindSuccessorRemote q n id cb).2.net := fun n =>
    hq.calls (Calls.refl.findSuccessorRemote q.node n id trivial)
  rw [AnswersOnce, heq]
  constructor
  · intro h i hi
    rw [← noStrayReply_iff (hafter _)]
    have hlog : (nodeFindSuccessorRemote q (nodeClosestPrecedingNode p.node id) id cb).2.log
        = p.log ++ (us ++ [.asked cb
          (nodeFindSuccessorRemote q (nodeClosestPrecedingNode p.node id) id cb).1]) := by
      rw [← List.append_assoc, ← hus]
      rfl
    apply h.noStrayReply hlog _ hi
    rw [requestsTried_append]
    exact List.append_ne_nil_of_right_ne_nil _ (List.cons_ne_nil _ _)
  · intro h
    apply Settles.of_reads _ hnet hus hreads
    apply nodeFindSuccessorRemote_settles hq.numbered
    intro i hi
    rw [noStrayReply_iff (hafter _)]
    apply h
    rw [← hnet]
    exact hi

/-- A lookup answers once, whichever callback it is started with, exactly when it is not one
of the node's own identifier, and no later connection in the slot of its request, if it sends one,
inherits the function that reads the reply. -/
theorem answersOnce_iff (hcb : cb.Passive) (hp : Steady p.net) (id : HashType)
    (os : List Occurrence) :
  AnswersOnce p id cb os ↔ id ≠ p.node.self.id ∧ (p.node.Answers id
    ∨ ∀ i, netEmptyConnectionSlot p.net = some i →
      NoReaderInherited i (nodeFindSuccessor p id cb).2 os)
  := by
  by_cases hself : id = p.node.self.id
  · subst hself
    exact iff_of_false (not_answersOnce_self hcb p os) fun h => h.1 rfl
  rw [and_iff_right hself]
  by_cases hanswers : p.node.Answers id
  · exact iff_of_true (answersOnce_of_answers hcb hself hanswers os) (Or.inl hanswers)
  · rw [answersOnce_forward_iff hp hself hanswers, or_iff_right hanswers]

end

/-- The node `0` with the successor `5`. -/
def beforeFive : NodeSelf :=
  { NodeSelf.blank with
    successor := fun k => if k.val = 0 then { id := 5, IP := 1, port := 1 } else nullNode }

/-- The reply to a lookup: the node `9`. -/
def nineFound : List Occurrence :=
  [.data 0 (successorReply { id := 9, IP := 1, port := 1 } 1)]

/-- The node `0` asks its successor `5` for the successor of `7`, and answers the lookup once,
with the reply. A lookup of `0` it does not answer once. -/
theorem answersOnce_iff_beforeFive :
  AnswersOnce (Process.boot beforeFive fun _ => .fine) 7 (.app 0) nineFound
    ∧ ¬ AnswersOnce (Process.boot beforeFive fun _ => .fine) 0 (.app 0) []
  := by
  have hcb : (FoundCb.app 0).Passive := trivial
  have hp := steady_boot beforeFive fun _ => .fine
  constructor
  · refine (answersOnce_iff hcb hp 7 nineFound).mpr ⟨by decide, Or.inr ?_⟩
    rintro i - before bytes after heq - hinherits
    obtain rfl := before_eq_nil heq
    exact not_inherits_nil hinherits
  · intro h
    exact ((answersOnce_iff hcb hp 0 []).mp h).1 rfl

/-- The node whose identifier is `0` does not answer a lookup of `0` once. -/
theorem lookup_answers_twice :
  ¬ ∀ (p : NodeProcess) (id : HashType) (cb : FoundCb) (os : List Occurrence), Steady p.net →
    cb.Passive → AnswersOnce p id cb os
  := by
  intro h
  have hcb : (FoundCb.app 0).Passive := trivial
  apply not_answersOnce_self hcb (Process.boot .blank fun _ => .fine) []
  exact h _ _ _ _ (steady_boot _ _) hcb
