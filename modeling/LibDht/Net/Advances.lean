import LibDht.Net.NodeIo
import LibDht.Node.Acts

/-!
# How the connection table of a node moves on

Serials are given out in order and never again. `Advances R` relates two tables when the
second may come after the first: a slot holds the connection that it held before, or a new
one, or none, and the lookups that a slot is waiting for on behalf of another connection
are those from before, or new ones for which `R` holds, waiting on new connections.
Everything that a node does to its table advances it so.
-/

namespace NodeNet

/-- The serial of the connection in the slot `i`. -/
def serialIn (net : NodeNet) (i : Fin maxOpenConnections) : Option ℕ :=
  (net.connections i).bev.map Bufferevent.serial

/-- Whom a reply that is filled in the argument is to be relayed to. -/
def relayOf : Option CbArg → Option IncomingHandlerData
  | some (.found data) =>
    match data.cb with
    | .successorFoundForRemote h => some h
    | _ => none
  | _ => none

/-- Whom the reply on the connection in the slot `i` is to be relayed to. -/
def relayIn (net : NodeNet) (i : Fin maxOpenConnections) : Option IncomingHandlerData :=
  relayOf (net.connections i).upperCbArg

/-- The open connections have different serials, of those given out so far. -/
structure Numbered (net : NodeNet) : Prop where
  lt : ∀ {i s}, net.serialIn i = some s → s < net.nextSerial
  eq : ∀ {i j s}, net.serialIn i = some s → net.serialIn j = some s → i = j

end NodeNet

/-- The table `net'` may come after `net`. -/
structure Advances (R : IncomingHandlerData → Prop) (net net' : NodeNet) : Prop where
  nextSerial : net.nextSerial ≤ net'.nextSerial
  serial : ∀ {i s}, net'.serialIn i = some s → net.serialIn i = some s ∨ net.nextSerial ≤ s
  numbered : net.Numbered → net'.Numbered
  relay : ∀ {i h}, net'.relayIn i = some h →
    net.relayIn i = some h ∨ R h ∧ ∀ s, net'.serialIn i = some s → net.nextSerial ≤ s

@[simp]
theorem NetServer.serialAt_coe (net : NodeNet) (i : Fin maxOpenConnections) :
  net.serialAt i.val = NodeNet.serialIn net i
  := by
  simp [NetServer.serialAt, NodeNet.serialIn]

namespace Advances

variable {R : IncomingHandlerData → Prop} {net net' net'' : NodeNet}

/-- Nothing changes but the answers that were given and whether the process has crashed. -/
theorem same (hconn : net'.connections = net.connections)
    (hnext : net'.nextSerial = net.nextSerial) :
  Advances R net net'
  := by
  have hserial : ∀ i, net'.serialIn i = net.serialIn i := by
    intro i
    rw [NodeNet.serialIn, hconn, NodeNet.serialIn]
  refine ⟨le_of_eq hnext.symm, ?_, ?_, ?_⟩
  · intro i s hs
    left
    rw [← hserial, hs]
  · intro h
    constructor
    · intro i s hs
      rw [hnext]
      apply h.lt (i := i)
      rw [← hserial, hs]
    · intro i j s hi hj
      rw [hserial] at hi hj
      exact h.eq hi hj
  · intro i h hrelay
    left
    rw [NodeNet.relayIn, ← hconn]
    exact hrelay

@[refl]
theorem refl (net : NodeNet) :
  Advances R net net
  := same rfl rfl

theorem ask (net : NodeNet) :
  Advances R net net.ask.2
  := same rfl rfl

theorem trans (h : Advances R net net') (h' : Advances R net' net'') :
  Advances R net net''
  := by
  refine ⟨le_trans h.nextSerial h'.nextSerial, ?_, fun hn => h'.numbered (h.numbered hn), ?_⟩
  · intro i s hs
    rcases h'.serial hs with hs' | hs'
    · exact h.serial hs'
    · exact Or.inr (le_trans h.nextSerial hs')
  · intro i d hrelay
    rcases h'.relay hrelay with hrelay' | ⟨hR, hs⟩
    · rcases h.relay hrelay' with hrelay'' | ⟨hR, hs⟩
      · exact Or.inl hrelay''
      · refine Or.inr ⟨hR, ?_⟩
        intro s hs''
        rcases h'.serial hs'' with hs' | hs'
        · exact hs s hs'
        · exact le_trans h.nextSerial hs'
    · refine Or.inr ⟨hR, ?_⟩
      intro s hs''
      exact le_trans h.nextSerial (hs s hs'')

/-- One slot changes: it keeps its connection, loses it, or gets a new one. -/
theorem update {i : Fin maxOpenConnections} {c : NetConnection DataCb EventCb CbArg}
    (hconn : net'.connections = Function.update net.connections i c)
    (hnext : net.nextSerial ≤ net'.nextSerial)
    (hserial : ∀ s, c.bev.map Bufferevent.serial = some s →
      net.serialIn i = some s ∨ net.nextSerial ≤ s ∧ s < net'.nextSerial)
    (hrelay : ∀ h, NodeNet.relayOf c.upperCbArg = some h →
      net.relayIn i = some h
        ∨ R h ∧ ∀ s, c.bev.map Bufferevent.serial = some s → net.nextSerial ≤ s) :
  Advances R net net'
  := by
  have hself : net'.connections i = c := by rw [hconn, Function.update_self]
  have hother : ∀ j, j ≠ i → net'.connections j = net.connections j := by
    intro j hj
    rw [hconn, Function.update_of_ne hj]
  have hslot : ∀ j s, net'.serialIn j = some s →
      net.serialIn j = some s ∨ j = i ∧ net.nextSerial ≤ s ∧ s < net'.nextSerial := by
    intro j s hs
    by_cases hj : j = i
    · subst hj
      rw [NodeNet.serialIn, hself] at hs
      rcases hserial s hs with h | h
      · exact Or.inl h
      · exact Or.inr ⟨rfl, h⟩
    · left
      rw [NodeNet.serialIn, hother j hj] at hs
      exact hs
  refine ⟨hnext, ?_, ?_, ?_⟩
  · intro j s hs
    rcases hslot j s hs with h | ⟨-, h, -⟩
    · exact Or.inl h
    · exact Or.inr h
  · intro hn
    constructor
    · intro j s hs
      rcases hslot j s hs with h | ⟨-, -, h⟩
      · exact lt_of_lt_of_le (hn.lt h) hnext
      · exact h
    · intro j k s hj hk
      rcases hslot j s hj with hj' | ⟨rfl, hge, -⟩ <;>
        rcases hslot k s hk with hk' | ⟨rfl, hge', -⟩
      · exact hn.eq hj' hk'
      · exact absurd (hn.lt hj') (not_lt.mpr hge')
      · exact absurd (hn.lt hk') (not_lt.mpr hge)
      · rfl
  · intro j h hr
    by_cases hj : j = i
    · subst hj
      rw [NodeNet.relayIn, hself] at hr
      rw [NodeNet.serialIn, hself]
      exact hrelay h hr
    · left
      rw [NodeNet.relayIn, hother j hj] at hr
      exact hr

/-- One slot changes that keeps its connection and its argument, or loses them. -/
theorem keep {i : Fin maxOpenConnections} {c : NetConnection DataCb EventCb CbArg}
    (hconn : net'.connections = Function.update net.connections i c)
    (hnext : net'.nextSerial = net.nextSerial)
    (hserial : ∀ s, c.bev.map Bufferevent.serial = some s → net.serialIn i = some s)
    (hrelay : ∀ h, NodeNet.relayOf c.upperCbArg = some h → net.relayIn i = some h) :
  Advances R net net'
  := update hconn (le_of_eq hnext.symm) (fun s hs => Or.inl (hserial s hs))
    (fun h hh => Or.inl (hrelay h hh))

theorem modifyBev (net : NodeNet) (i : Fin maxOpenConnections) (f : Bufferevent → Bufferevent)
    (hf : ∀ b, (f b).serial = b.serial) :
  Advances R net (net.modifyBev i f)
  := by
  refine keep (i := i) rfl rfl ?_ (fun h hh => hh)
  intro s hs
  simpa [NodeNet.serialIn, Function.comp_def, hf] using hs

theorem write (net : NodeNet) (i : Fin maxOpenConnections) (bytes : List UInt8) :
  Advances R net (net.write i bytes)
  := modifyBev net i _ (fun _ => rfl)

theorem close (net : NodeNet) (connection : ℤ) :
  Advances R net (netConnectionClose net connection)
  := by
  rw [netConnectionClose]
  split
  · refine keep rfl rfl ?_ (fun h hh => hh)
    intro s hs
    cases hs
  · rfl

theorem getBuffer (net : NodeNet) (connection : ℤ) :
  Advances R net (netConnectionGetBuffer net connection).2
  := by
  rw [netConnectionGetBuffer]
  split
  · rfl
  · split
    · exact same rfl rfl
    · rfl

/-- A setter is called that leaves the argument or sets one that relays nothing. -/
theorem set (net : NodeNet) (connection : ℤ)
    (f : NetConnection DataCb EventCb CbArg → NetConnection DataCb EventCb CbArg)
    (hbev : ∀ c, (f c).bev = c.bev)
    (harg : ∀ c h, NodeNet.relayOf (f c).upperCbArg = some h → NodeNet.relayOf c.upperCbArg = some h) :
  Advances R net (netConnectionSet net connection f).2
  := by
  rw [netConnectionSet]
  split
  · refine keep rfl rfl ?_ (fun h hh => harg _ h hh)
    intro s hs
    rw [hbev] at hs
    exact hs
  · rfl

theorem dangle (net : NodeNet) (connection : ℤ) (arg : CbArg) :
  Advances R net (netConnectionSet net connection (NodeNet.dangle arg)).2
  := by
  refine set net connection _ (NodeNet.dangle_bev arg) ?_
  intro c h hh
  unfold NodeNet.dangle at hh
  split at hh
  · cases hh
  · exact hh

theorem setReadCb (net : NodeNet) (connection : ℤ) (cb : Option DataCb) :
  Advances R net (netConnectionSetReadCb net connection cb).2
  := set net connection _ (fun _ => rfl) (fun _ _ hh => hh)

theorem setWriteCb (net : NodeNet) (connection : ℤ) (cb : Option DataCb) :
  Advances R net (netConnectionSetWriteCb net connection cb).2
  := set net connection _ (fun _ => rfl) (fun _ _ hh => hh)

theorem setEventCb (net : NodeNet) (connection : ℤ) (cb : Option EventCb) :
  Advances R net (netConnectionSetEventCb net connection cb).2
  := set net connection _ (fun _ => rfl) (fun _ _ hh => hh)

theorem setCbArg (net : NodeNet) (connection : ℤ) {cbArg : Option CbArg}
    (harg : NodeNet.relayOf cbArg = none) :
  Advances R net (netConnectionSetCbArg net connection cbArg).2
  := by
  refine set net connection _ (fun _ => rfl) ?_
  intro c h hh
  rw [harg] at hh
  cases hh

/-- A message is sent on a connection that is made for it. -/
theorem attempt {msg : NodeMessage} {readCb : Option DataCb} {eventCb : Option EventCb}
    {cbArg : Option CbArg} {result : ℤ × NodeNet}
    (h : Attempt net msg readCb eventCb cbArg result)
    (hR : ∀ d, NodeNet.relayOf cbArg = some d → R d) :
  Advances R net result.2
  := by
  have hrelay : ∀ (i : Fin maxOpenConnections) d,
      NodeNet.relayOf (cbArg.or (net.connections i).upperCbArg) = some d →
      net.relayIn i = some d ∨ R d := by
    intro i d hd
    cases cbArg with
    | none => exact Or.inl hd
    | some a => exact Or.inr (hR d hd)
  have hfresh : ∀ (i : Fin maxOpenConnections) (b : Bufferevent) (net' : NodeNet),
      b.serial = net.nextSerial → net'.nextSerial = net.nextSerial + 1 →
      net'.connections = Function.update net.connections i
        (taken (net.connections i) i b msg readCb eventCb cbArg) → Advances R net net' := by
    intro i b net' hb hnext hconn
    refine update hconn (by omega) ?_ ?_
    · intro s hs
      obtain rfl := Option.some.inj hs
      exact Or.inr ⟨le_of_eq hb.symm, by omega⟩
    · intro d hd
      rcases hrelay i d hd with h | h
      · exact Or.inl h
      · refine Or.inr ⟨h, ?_⟩
        intro s hs
        obtain rfl := Option.some.inj hs
        exact le_of_eq hb.symm
  cases h with
  | none calls => exact same rfl rfl
  | @lost i hi calls =>
    refine update (i := i) rfl (Nat.le_succ _) ?_ (fun h hh => Or.inl hh)
    intro s hs
    cases hs
  | @refused i hi calls =>
    refine update (i := i) rfl (Nat.le_succ _) ?_ ?_
    · intro s hs
      cases hs
    · intro d hd
      rcases hrelay i d hd with h | h
      · exact Or.inl h
      · refine Or.inr ⟨h, ?_⟩
        intro s hs
        cases hs
  | @unsent i hi calls => exact hfresh i _ _ rfl rfl rfl
  | @sent i hi calls => exact hfresh i _ _ rfl rfl rfl

theorem connectAndSend (net : NodeNet) (msg : NodeMessage) (readCb : Option DataCb)
    (eventCb : Option EventCb) (cbArg : Option CbArg)
    (hR : ∀ d, NodeNet.relayOf cbArg = some d → R d) :
  Advances R net (nodeConnectAndSendMessage net msg readCb eventCb cbArg).2
  := attempt (nodeConnectAndSendMessage_attempt net msg readCb eventCb cbArg) hR

end Advances

/-! ### The calls of a node -/

namespace NodeNet

variable {R : IncomingHandlerData → Prop}

theorem findSuccessorRemote_advances (net : NodeNet) (n : NodeInfo) (id : HashType) {cb : FoundCb}
    (hR : ∀ d, cb = .successorFoundForRemote d → R d) :
  Advances R net (net.findSuccessorRemote n id cb).2
  := by
  rw [findSuccessorRemote]
  dsimp only
  generalize (Request.findSuccessor id).message n = msg
  have hsent := Advances.connectAndSend (R := R) net.ask.2 msg (some .nodeFoundRemoteCb)
    (some .nodeRemoteFindEvent)
    (some (.found { cb := cb, node := net.ask.1.node, hops := net.ask.1.hops }))
  have hask : Advances R net net.ask.2 := Advances.ask net
  generalize nodeConnectAndSendMessage net.ask.2 msg (some .nodeFoundRemoteCb)
    (some .nodeRemoteFindEvent)
    (some (.found { cb := cb, node := net.ask.1.node, hops := net.ask.1.hops })) = sent at hsent ⊢
  have hnet : Advances R net sent.2 := by
    apply hask.trans
    apply hsent
    intro d hd
    cases cb <;> simp [relayOf] at hd
    rw [hd] at hR
    exact hR d rfl
  split
  · exact hnet
  · have hget := hnet.trans (Advances.getBuffer sent.2 sent.1)
    split
    · rename_i net' hbuf
      rw [hbuf] at hget
      exact hget
    · rename_i i b net' hbuf
      rw [hbuf] at hget
      exact hget.trans (Advances.write net' i _)

theorem getPredecessorRemote_advances (net : NodeNet) (n : NodeInfo) {cb : FoundCb}
    (hR : ∀ d, cb = .successorFoundForRemote d → R d) :
  Advances R net (net.getPredecessorRemote n cb)
  := by
  have hask : Advances R net net.ask.2 := Advances.ask net
  apply hask.trans
  apply Advances.connectAndSend
  intro d hd
  cases cb <;> simp [relayOf] at hd
  rw [hd] at hR
  exact hR d rfl

theorem notifyNode_advances (net : NodeNet) (self n : NodeInfo) :
  Advances R net (net.notifyNode self n)
  := by
  rw [notifyNode]
  dsimp only
  generalize (Request.notify self.id self.port).message n = msg
  have hsent := Advances.connectAndSend (R := R) net msg none (some .nodeNotifyRepEvent)
    (some .self) (by intro d hd; cases hd)
  generalize nodeConnectAndSendMessage net msg none (some .nodeNotifyRepEvent)
    (some .self) = sent at hsent ⊢
  have hget := hsent.trans (Advances.getBuffer sent.2 sent.1)
  split
  · rename_i net' hbuf
    rw [hbuf] at hget
    exact hget.trans (Advances.same rfl rfl)
  · rename_i i b net' hbuf
    rw [hbuf] at hget
    exact hget.trans (Advances.write net' i _)

theorem checkNode_advances (net : NodeNet) (n : NodeInfo) (cb : CheckCb) :
  Advances R net (net.checkNode n cb)
  := by
  apply Advances.connectAndSend
  intro d hd
  cases hd

theorem successorFoundForRemote_advances (net : NodeNet) (data : IncomingHandlerData)
    (n : NodeInfo) (hops : Int16) :
  Advances R net (net.successorFoundForRemote data n hops)
  := by
  rw [successorFoundForRemote]
  have hget := Advances.getBuffer (R := R) net data.connection
  split
  · rename_i net' hbuf
    rw [hbuf] at hget
    exact hget.trans (Advances.same rfl rfl)
  · rename_i i b net' hbuf
    rw [hbuf] at hget
    exact hget.trans (Advances.write net' i _)

end NodeNet

section

variable {R : IncomingHandlerData → Prop}

/-- Whatever a node calls advances its table, when `R` holds for the lookups it starts on
behalf of other nodes. -/
theorem Calls.advances {ok : FoundCb → Prop} {net net' : NodeNet} (h : Calls ok net net')
    (hR : ∀ d, ok (.successorFoundForRemote d) → R d) :
  Advances R net net'
  := by
  induction h with
  | refl => rfl
  | findSuccessorRemote h self n id hcb ih =>
    apply ih.trans
    apply NodeNet.findSuccessorRemote_advances
    intro d hd
    rw [hd] at hcb
    exact hR d hcb
  | getPredecessorRemote h self n hcb ih =>
    apply ih.trans
    apply NodeNet.getPredecessorRemote_advances
    intro d hd
    rw [hd] at hcb
    exact hR d hcb
  | notifyNode h self n ih => exact ih.trans (NodeNet.notifyNode_advances _ self.self n)
  | checkNode h self n cb ih => exact ih.trans (NodeNet.checkNode_advances _ n cb)
  | successorFoundForRemote h data n hops ih =>
    exact ih.trans (NodeNet.successorFoundForRemote_advances _ data n hops)
  | useFreed h ih => exact ih.trans (Advances.same rfl rfl)

/-! ### The listener and the application -/

theorem netConnectionCreate_advances (net : NodeNet) (IP : UInt32) (port : UInt16) :
  Advances R net (netConnectionCreate net IP port).2
  := by
  cases hi : netEmptyConnectionSlot net with
  | none =>
    rw [netConnectionCreate, hi]
  | some i =>
    rw [netConnectionCreate_of_slot hi]
    split_ifs
    · refine Advances.update (i := i) rfl (Nat.le_succ _) ?_ (fun h hh => Or.inl hh)
      intro s hs
      obtain rfl := Option.some.inj hs
      exact Or.inr ⟨le_refl _, Nat.lt_succ_self _⟩
    · refine Advances.update (i := i) rfl (Nat.le_succ _) ?_ (fun h hh => Or.inl hh)
      intro s hs
      cases hs
    · exact Advances.same rfl rfl

theorem listenEvtCb_advances (net : NodeNet) (peer : UInt32) :
  Advances R net
    (listenEvtCb net peer (incomingConnection .incomingReadCb .incomingEventCb .self))
  := by
  cases hi : netEmptyConnectionSlot net with
  | none =>
    rw [listenEvtCb, hi]
  | some i =>
    rw [listenEvtCb_of_slot hi]
    split_ifs
    · refine Advances.update (i := i) rfl (Nat.le_succ _) ?_ ?_
      · intro s hs
        obtain rfl := Option.some.inj hs
        exact Or.inr ⟨le_refl _, Nat.lt_succ_self _⟩
      · intro h hh
        cases hh
    · refine Advances.update (i := i) rfl (Nat.le_succ _) ?_ (fun h hh => Or.inl hh)
      intro s hs
      cases hs
    · exact Advances.same rfl rfl

theorem nodeSendMessage_advances (net : NodeNet) (msg : NodeMessage) (connection : ℤ) :
  Advances R net (nodeSendMessage net msg connection).2
  := by
  rw [nodeSendMessage]
  have hget := Advances.getBuffer (R := R) net connection
  split
  · rename_i net' hbuf
    rw [hbuf] at hget
    exact hget
  · rename_i i b net' hbuf
    rw [hbuf] at hget
    have hask : Advances R net net'.ask.2 := hget.trans (Advances.ask net')
    dsimp only
    split
    · exact hask
    · have hwrite := hask.trans (Advances.write net'.ask.2 i msg.text)
      apply hwrite.trans
      rw [netConnectionActivate]
      split
      · rfl
      · split
        · exact Advances.same rfl rfl
        · dsimp only
          split
          · apply (Advances.ask _).trans
            exact Advances.close _ _
          · apply (Advances.ask _).trans
            refine Advances.modifyBev _ _ _ ?_
            intro b
            rfl

end
