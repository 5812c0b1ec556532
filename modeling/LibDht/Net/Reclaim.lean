import LibDht.Net.Relay
import LibDht.Net.Slots

/-!
# The slots of dead connections

A connection is reported dead by an event with `BEV_EVENT_EOF` or `BEV_EVENT_ERROR` in its
mask, or `BEV_EVENT_TIMEOUT` when the node made it. Whether its slot is given back is up to
the event callback that the slot holds. An invariant of all runs is that on a connection
of the node the argument fits the event callback, unless the application has set one of
them.
-/

/-- The argument is one that the event callback is set with, or the application has set one
of them. The argument of `incoming_event_msg_cb` is freed when the message was delivered. -/
def EventCb.Fits : EventCb → CbArg → Prop
  | .app _, _ | _, .app _ => True
  | .nodeRemoteFindEvent, .found _ => True
  | .nodeNotifyRepEvent, .self => True
  | .nodeCheckNodeEvent, .check _ => True
  | .incomingEventCb, .self => True
  | .incomingEventMsgCb, .msg _ _ | .incomingEventMsgCb, .freed => True
  | _, _ => False

/-- The application has set the event callback or the argument of the slot. -/
def SetByApp (c : NodeSlot) : Prop :=
  (∀ e ∈ c.evtCb, ∃ cb, e = .app cb) ∨ ∀ a ∈ c.upperCbArg, ∃ arg, a = .app arg

/-- The slot of a connection that the node made or accepted: the argument fits the event
callback. -/
def Fitting (origin : ℕ → Origin) (c : NodeSlot) : Prop :=
  ∀ b ∈ c.bev, origin b.serial ≠ .foreign → ∀ e ∈ c.evtCb, ∀ a ∈ c.upperCbArg, e.Fits a

/-- By whom the connections are made so far, after one more occurrence. -/
def NodeNet.origins (net : NodeNet) (origin : ℕ → Origin) (o : Occurrence) (s : ℕ) : Origin :=
  if s < net.nextSerial then origin s else o.origin

/-- The connection in the slot `i`, made by the node or accepted, is reported dead. -/
structure DeadReport (origin : ℕ → Origin) (p : NodeProcess) (o : Occurrence)
    (i : Fin maxOpenConnections) (what : UInt16) (b : Bufferevent) : Prop where
  running : p.net.crashed = false
  event : o = .event i what
  bev : (p.net.connections i).bev = some b
  enabled : b.enabled = true
  dead : origin b.serial = .opened
      ∧ what &&& (bevEventEof ||| bevEventError ||| bevEventTimeout) ≠ 0
    ∨ origin b.serial = .accepted ∧ what &&& (bevEventEof ||| bevEventError) ≠ 0

/-- Whenever a connection is reported dead in a run, its slot is free then, and the
connection is in no slot ever after. -/
def GivesBack : (ℕ → Origin) → NodeProcess → List Occurrence → Prop
  | _, _, [] => True
  | origin, p, o :: os =>
    (∀ i what b, DeadReport origin p o i what b → ((p.occur o).net.connections i).bev = none
        ∧ ∀ n j, NodeNet.serialIn ((p.occur o).runIo (os.take n)).net j ≠ some b.serial)
      ∧ GivesBack (p.net.origins origin o) (p.occur o) os

/-- The event callback in the slot closes a dead connection. It and its argument are not set
by the application; it is not that of a request for a node; and when it is one of an
accepted connection, its argument is not freed, and the mask has `BEV_EVENT_EOF` or the bit
that `BEV_ERROR` stands for. -/
structure Reclaimable (c : NodeSlot) (what : UInt16) : Prop where
  node : ¬ SetByApp c
  notFind : c.evtCb ≠ some .nodeRemoteFindEvent
  incoming : c.evtCb = some .incomingEventCb ∨ c.evtCb = some .incomingEventMsgCb →
    c.upperCbArg ≠ some .freed ∧ what &&& (bevError ||| bevEventEof) ≠ 0

/-- Whenever a connection is reported dead in a run, its event callback closes it. -/
def Reclaims : (ℕ → Origin) → NodeProcess → List Occurrence → Prop
  | _, _, [] => True
  | origin, p, o :: os =>
    (∀ i what b, DeadReport origin p o i what b → Reclaimable (p.net.connections i) what)
      ∧ Reclaims (p.net.origins origin o) (p.occur o) os

/-! ### The argument fits the callback -/

section

variable {origin : ℕ → Origin} {who : Origin} {n : ℕ}

theorem EventCb.Fits.freed {e : EventCb} {type : UInt8} {len : UInt32}
    (h : e.Fits (.msg type len)) :
  e.Fits .freed
  := by
  cases e with
  | incomingEventMsgCb => trivial
  | app cb => trivial
  | _ => exact absurd h not_false

/-- Every change to a slot keeps the argument fitting. -/
theorem Fitting.change (horigin : origin n = who) {c c' : NodeSlot}
    (hchange : SlotChange who n c c') (h : Fitting origin c) :
  Fitting origin c'
  := by
  intro b hb hown e he a ha
  cases hchange with
  | modifyBev hf =>
    obtain ⟨b', hb', rfl⟩ := Option.map_eq_some_iff.mp hb
    rw [hf] at hown
    exact h b' hb' hown e he a ha
  | close => cases hb
  | request i hserial msg hrequest hwho =>
    cases hrequest with
    | find data =>
      obtain rfl := Option.some.inj he
      obtain rfl := Option.some.inj ha
      trivial
    | notify =>
      obtain rfl := Option.some.inj he
      obtain rfl := Option.some.inj ha
      trivial
    | probe cb =>
      obtain rfl := Option.some.inj he
      obtain rfl := Option.some.inj ha
      trivial
  | accept i hserial hwho =>
    obtain rfl := Option.some.inj he
    obtain rfl := Option.some.inj ha
    trivial
  | foreign i hserial msg readCb eventCb cbArg hwho =>
    obtain rfl := Option.some.inj hb
    rw [hserial, horigin, hwho] at hown
    exact absurd rfl hown
  | setReadCb hcb => exact h b hb hown e he a ha
  | setWriteCb cb => exact h b hb hown e he a ha
  | setEventCb cb =>
    obtain ⟨k, -, rfl⟩ := Option.map_eq_some_iff.mp he
    trivial
  | setCbArg cbArg =>
    obtain ⟨k, -, rfl⟩ := Option.map_eq_some_iff.mp ha
    cases e <;> trivial
  | defer type len =>
    obtain rfl := Option.some.inj he
    obtain rfl := Option.some.inj ha
    trivial
  | @dangle arg harg =>
    rw [NodeNet.dangle_bev] at hb
    unfold NodeNet.dangle at he ha
    split at he
    · rename_i heq
      rw [if_pos heq] at ha
      obtain rfl := Option.some.inj ha
      rcases harg with hnone | ⟨type, len, rfl⟩
      · rw [hnone] at hb
        cases hb
      · exact (h b hb hown e he _ heq).freed
    · rename_i hne
      rw [if_neg hne] at ha
      exact h b hb hown e he a ha

/-- Whatever happens, the arguments stay fitting. -/
theorem fitting_occur {p : NodeProcess} (hnum : p.net.Numbered)
    (h : ∀ i, Fitting origin (p.net.connections i)) (o : Occurrence) (i : Fin maxOpenConnections) :
  Fitting (p.net.origins origin o) ((p.occur o).net.connections i)
  := by
  apply (occur_evolves p o).forall_slot
  · intro n hn c c' hchange hc
    apply hc.change _ hchange
    rw [NodeNet.origins, if_neg (not_lt.mpr hn)]
  · intro j b hb hown
    have hlt : b.serial < p.net.nextSerial := by
      apply hnum.lt (i := j)
      rw [NodeNet.serialIn, hb, Option.map_some]
    rw [NodeNet.origins, if_pos hlt] at hown
    exact h j b hb hown

end

/-! ### One report -/

section

variable {origin : ℕ → Origin} {p : NodeProcess} {o : Occurrence} {i : Fin maxOpenConnections}
  {what : UInt16} {b : Bufferevent}

/-- A mask of a dead connection is one that the callbacks of requests close on. -/
theorem DeadReport.mask (h : DeadReport origin p o i what b) :
  what &&& (bevEventEof ||| bevEventError ||| bevEventTimeout) ≠ 0
  := by
  rcases h.dead with ⟨-, hmask⟩ | ⟨-, hmask⟩
  · exact hmask
  · intro hzero
    apply hmask
    have hsub : (bevEventEof ||| bevEventError : UInt16)
        = (bevEventEof ||| bevEventError ||| bevEventTimeout) &&& (bevEventEof ||| bevEventError) := by
      decide
    rw [hsub, ← UInt16.and_assoc, hzero]
    exact UInt16.zero_and

theorem close_bev (net : NodeNet) (i : Fin maxOpenConnections) :
  ((netConnectionClose net i.val).connections i).bev = none
  := by
  simp [netConnectionClose, NetServer.modify]

theorem closeFree_bev (net : NodeNet) (i : Fin maxOpenConnections) (arg : CbArg) :
  ((netConnectionSet (netConnectionClose net i.val) i.val (NodeNet.dangle arg)).2.connections
    i).bev = none
  := by
  simp [netConnectionClose, netConnectionSet, NetServer.modify]

theorem DeadReport.occur_eq (h : DeadReport origin p o i what b) :
  p.occur o = runEventCb p what ((p.net.connections i).evtCb.map
    fun cb => (cb, (i.val : ℤ), (p.net.connections i).upperCbArg))
  := by
  have henabled : p.net.isEnabled i = true := (NodeNet.isEnabled_of_bev h.bev).trans h.enabled
  rw [h.event, Process.occur_of_running h.running, Occurrence.handle, henabled, if_pos rfl,
    netConnectionEventCb_coe]

/-- What the application has set closes nothing. -/
theorem runEventCb_of_setByApp (h : SetByApp (p.net.connections i)) :
  (runEventCb p what ((p.net.connections i).evtCb.map
    fun cb => (cb, (i.val : ℤ), (p.net.connections i).upperCbArg))).net.connections i
    = p.net.connections i
  := by
  cases he : (p.net.connections i).evtCb with
  | none => rfl
  | some e =>
    cases ha : (p.net.connections i).upperCbArg with
    | none => cases e <;> rfl
    | some a =>
      rcases h with hcb | harg
      · obtain ⟨cb, rfl⟩ := hcb e he
        rfl
      · obtain ⟨arg, rfl⟩ := harg a ha
        cases e <;> rfl

/-- What the application has not set is a callback and an argument of the node. -/
theorem exists_of_not_setByApp {c : NodeSlot} (h : ¬ SetByApp c) :
  (∃ e, c.evtCb = some e ∧ ∀ cb, e ≠ .app cb) ∧ ∃ a, c.upperCbArg = some a ∧ ∀ arg, a ≠ .app arg
  := by
  simp only [SetByApp, Option.mem_def, not_or, not_forall, not_exists] at h
  obtain ⟨⟨e, he, hcb⟩, a, ha, harg⟩ := h
  exact ⟨⟨e, he, hcb⟩, a, ha, harg⟩

/-- The slot of a connection that is reported dead is free afterwards exactly when its event
callback closes it. -/
theorem DeadReport.free_iff (h : DeadReport origin p o i what b)
    (hfits : Fitting origin (p.net.connections i)) :
  ((p.occur o).net.connections i).bev = none ↔ Reclaimable (p.net.connections i) what
  := by
  have hown : origin b.serial ≠ .foreign := by
    rcases h.dead with ⟨horigin, -⟩ | ⟨horigin, -⟩ <;> rw [horigin] <;> decide
  have hkept : (p.net.connections i).bev ≠ none := by
    rw [h.bev]
    exact Option.some_ne_none b
  rw [h.occur_eq]
  by_cases hset : SetByApp (p.net.connections i)
  · rw [runEventCb_of_setByApp hset]
    exact iff_of_false hkept fun hr => hr.node hset
  · obtain ⟨⟨e, he, hcb⟩, a, ha, harg⟩ := exists_of_not_setByApp hset
    have hfits := hfits b h.bev hown e he a ha
    rw [he, ha, Option.map_some]
    cases e with
    | app cb => exact absurd rfl (hcb cb)
    | nodeRemoteFindEvent => exact iff_of_false hkept fun hr => hr.notFind he
    | nodeNotifyRepEvent =>
      cases a with
      | self =>
        rw [runEventCb, nodeNotifyRepEvent, if_pos h.mask, Process.close_net]
        apply iff_of_true (close_bev p.net i)
        exact ⟨hset, by simp [he], by simp [he]⟩
      | app arg => exact absurd rfl (harg arg)
      | _ => exact absurd hfits not_false
    | nodeCheckNodeEvent =>
      cases a with
      | check cb =>
        rw [runEventCb, nodeCheckNodeEvent, if_pos h.mask, Process.free_net, Process.close_net]
        apply iff_of_true (closeFree_bev _ i _)
        exact ⟨hset, by simp [he], by simp [he]⟩
      | app arg => exact absurd rfl (harg arg)
      | _ => exact absurd hfits not_false
    | incomingEventCb =>
      cases a with
      | self =>
        rw [runEventCb, incomingEventCb]
        split_ifs with hclose
        · rw [Process.close_net]
          apply iff_of_true (close_bev p.net i)
          exact ⟨hset, by simp [he], fun _ => ⟨by simp [ha], hclose⟩⟩
        · exact iff_of_false hkept fun hr => hclose (hr.incoming (Or.inl he)).2
      | app arg => exact absurd rfl (harg arg)
      | _ => exact absurd hfits not_false
    | incomingEventMsgCb =>
      cases a with
      | msg type len =>
        rw [runEventCb, incomingEventMsgCb]
        split_ifs with hclose
        · rw [Process.close_net]
          apply iff_of_true (close_bev p.net i)
          exact ⟨hset, by simp [he], fun _ => ⟨by simp [ha], hclose⟩⟩
        · exact iff_of_false hkept fun hr => hclose (hr.incoming (Or.inr he)).2
      | freed => exact iff_of_false hkept fun hr => (hr.incoming (Or.inr he)).1 ha
      | app arg => exact absurd rfl (harg arg)
      | _ => exact absurd hfits not_false

/-- A connection that is in no slot does not come back. -/
theorem not_serialIn_run {s : ℕ} (hnum : p.net.Numbered) (hs : s < p.net.nextSerial)
    (hgone : ∀ j, p.net.serialIn j ≠ some s) (os : List Occurrence) (j : Fin maxOpenConnections) :
  (p.runIo os).net.serialIn j ≠ some s
  := by
  induction os generalizing p with
  | nil => exact hgone j
  | cons o os ih =>
    have hnet := (occur_happens p o).net
    apply ih (hnet.numbered hnum) (lt_of_lt_of_le hs hnet.nextSerial)
    intro k hk
    rcases hnet.serial hk with hk | hk
    · exact hgone k hk
    · omega

/-- A connection whose slot is free after it was reported dead is in no slot any more. -/
theorem DeadReport.gone (h : DeadReport origin p o i what b) (hnum : p.net.Numbered)
    (hfree : ((p.occur o).net.connections i).bev = none) (os : List Occurrence)
    (j : Fin maxOpenConnections) :
  ((p.occur o).runIo os).net.serialIn j ≠ some b.serial
  := by
  have hnet := (occur_happens p o).net
  have hserial : NodeNet.serialIn p.net i = some b.serial := by
    rw [NodeNet.serialIn, h.bev, Option.map_some]
  have hlt := hnum.lt hserial
  apply not_serialIn_run (hnet.numbered hnum) (lt_of_lt_of_le hlt hnet.nextSerial)
  intro k hk
  rcases hnet.serial hk with hk' | hk'
  · obtain rfl := hnum.eq hk' hserial
    rw [NodeNet.serialIn, hfree] at hk
    cases hk
  · omega

end

/-! ### Runs -/

/-- In every run, the slots of the connections that are reported dead are given back, exactly
when each of these is reported to an event callback that closes it. -/
theorem givesBack_iff (s : NodeSelf) (outcome : ℕ → Outcome) (os : List Occurrence) :
  GivesBack (fun _ => .foreign) (Process.boot s outcome) os
    ↔ Reclaims (fun _ => .foreign) (Process.boot s outcome) os
  := by
  have hnum := numbered_boot s outcome
  have hfits : ∀ i, Fitting (fun _ => .foreign) ((Process.boot s outcome).net.connections i) :=
    fun i b _ hown => absurd rfl hown
  generalize (fun _ : ℕ => Origin.foreign) = origin at hfits ⊢
  generalize Process.boot s outcome = p at hnum hfits ⊢
  induction os generalizing p origin with
  | nil => exact Iff.rfl
  | cons o os ih =>
    apply and_congr
    · constructor
      · intro h i what b hdead
        exact (hdead.free_iff (hfits i)).mp (h i what b hdead).1
      · intro h i what b hdead
        have hfree := (hdead.free_iff (hfits i)).mpr (h i what b hdead)
        exact ⟨hfree, fun n j => hdead.gone hnum hfree _ j⟩
    · exact ih _ _ ((occur_happens p o).net.numbered hnum) (fitting_occur hnum hfits o)

/-- A node asks one that is dead. -/
def deadPeer : List Occurrence :=
  [.findSuccessor 20 0, .event 0 bevEventError]

/-- The connection that the dead node was asked on. -/
def awaitingDead : Bufferevent :=
  { serial := 0, input := [], output := (Request.findSuccessor 20).wire, low := 0
    enabled := true, peer := 7 }

/-- The error is reported, and the slot stays taken. -/
theorem dead_peer_keeps_slot :
  ¬ ∀ (s : NodeSelf) (outcome : ℕ → Outcome) (os : List Occurrence),
    GivesBack (fun _ => .foreign) (Process.boot s outcome) os
  := by
  intro h
  have hreport : DeadReport
      ((Process.boot forwarding fun _ => .fine).net.origins (fun _ => .foreign)
        (.findSuccessor 20 0))
      ((Process.boot forwarding fun _ => .fine).occur (.findSuccessor 20 0))
      (.event 0 bevEventError) 0 bevEventError awaitingDead := by
    refine ⟨by decide +kernel, rfl, by decide +kernel, rfl, ?_⟩
    left
    decide +kernel
  obtain ⟨-, hlast, -⟩ := h forwarding (fun _ => .fine) deadPeer
  have hfree := (hlast 0 bevEventError _ hreport).1
  revert hfree
  decide +kernel
