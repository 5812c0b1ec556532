import LibDht.Net.Serving
import LibDht.Net.Slots

/-!
# What comes on a connection

In a run of a process many things happen, and some of them on one connection: data arrives on
it, an event is reported, its output is drained. They are found in the run by the slot and
by the serial of the connection, and what the process logs while it handles them is what comes
of the connection. Once the connection is not in its slot any more, or the process has
crashed, nothing comes of it.
-/

/-- What arrives on the connection in the slot `i`. -/
def Occurrence.arrivalOn (i : Fin maxOpenConnections) : Occurrence → Option ConnectionEvent
  | .data j bytes => if j = i then some (.data bytes) else none
  | .event j what => if j = i then some (.event what) else none
  | _ => none

/-- What is logged on the way from `p` to `q`. -/
def loggedSince (p q : NodeProcess) : List Event :=
  q.log.drop p.log.length

/-- What is logged when something happens on the connection with the serial `s` in the slot
`i`. -/
def loggedOn (i : Fin maxOpenConnections) (s : ℕ) : NodeProcess → List Occurrence → List Event
  | _, [] => []
  | p, o :: os =>
    (if o.slot = some i ∧ NodeNet.serialIn p.net i = some s then loggedSince p (p.occur o) else [])
      ++ loggedOn i s (p.occur o) os

/-- The application does nothing to the connection with the serial `s` in the slot `i`. -/
def LeftAlone (i : Fin maxOpenConnections) (s : ℕ) : NodeProcess → List Occurrence → Prop
  | _, [] => True
  | p, o :: os =>
    (NodeNet.serialIn p.net i = some s → o.named ≠ some i) ∧ LeftAlone i s (p.occur o) os

section

variable {p : NodeProcess} {i : Fin maxOpenConnections} {s : ℕ} {o : Occurrence}
  {os : List Occurrence} {net net' : NodeNet}

/-! ### What happens on a slot -/

theorem Occurrence.arrivalOn_eq_some {e : ConnectionEvent} (h : o.arrivalOn i = some e) :
  o = e.occurrence i
  := by
  cases o with
  | data j bytes =>
    rw [Occurrence.arrivalOn] at h
    split_ifs at h with hj
    obtain rfl := Option.some.inj h
    rw [hj]
    rfl
  | event j what =>
    rw [Occurrence.arrivalOn] at h
    split_ifs at h with hj
    obtain rfl := Option.some.inj h
    rw [hj]
    rfl
  | _ => cases h

@[simp]
theorem arrivalOn_data (i : Fin maxOpenConnections) (bytes : List UInt8) :
  (Occurrence.data i bytes).arrivalOn i = some (.data bytes)
  := if_pos rfl

@[simp]
theorem arrivalOn_event (i : Fin maxOpenConnections) (what : UInt16) :
  (Occurrence.event i what).arrivalOn i = some (.event what)
  := if_pos rfl

/-- What happens on a slot is an arrival, or a write buffer is drained. -/
theorem eq_drained_of_slot (hslot : o.slot = some i) (h : o.arrivalOn i = none) :
  o = .drained i
  := by
  cases o with
  | data j bytes =>
    obtain rfl := Option.some.inj hslot
    simp at h
  | drained j =>
    obtain rfl := Option.some.inj hslot
    rfl
  | event j what =>
    obtain rfl := Option.some.inj hslot
    simp at h
  | _ => cases hslot

theorem occur_crashed (h : p.net.crashed = true) (o : Occurrence) :
  p.occur o = p
  := by
  rw [Process.occur, h]
  rfl

/-- Nothing happens on a connection whose socket is not connected. -/
theorem occur_disabled (h : p.net.isEnabled i = false) (hslot : o.slot = some i) :
  p.occur o = p
  := by
  rw [Process.occur]
  split
  · rfl
  · cases o with
    | data j bytes =>
      obtain rfl := Option.some.inj hslot
      show arrive p j bytes = p
      exact arrive_disabled h bytes
    | drained j =>
      obtain rfl := Option.some.inj hslot
      show (if p.net.isEnabled j then _ else p) = p
      rw [h]
      rfl
    | event j what =>
      obtain rfl := Option.some.inj hslot
      show (if p.net.isEnabled j then _ else p) = p
      rw [h]
      rfl
    | _ => cases hslot

/-- Nothing happens before what happens alone. -/
theorem before_eq_nil {before after : List Occurrence} {o' : Occurrence}
    (h : [o] = before ++ o' :: after) :
  before = []
  := by
  cases before with
  | nil => rfl
  | cons o'' before => simp at h

/-! ### What is logged -/

/-- Nothing is logged when nothing happens on the slot, or what does changes nothing. -/
theorem loggedOn_still (h : o.slot = some i → p.occur o = p) (os : List Occurrence) :
  loggedOn i s p (o :: os) = loggedOn i s (p.occur o) os
  := by
  rw [loggedOn]
  split_ifs with hon
  · rw [h hon.1, loggedSince, List.drop_length]
    rfl
  · rfl

theorem loggedOn_cons (hslot : o.slot = some i) (hserial : NodeNet.serialIn p.net i = some s)
    {es : List Event} (hlog : (p.occur o).log = p.log ++ es) (os : List Occurrence) :
  loggedOn i s p (o :: os) = es ++ loggedOn i s (p.occur o) os
  := by
  rw [loggedOn, if_pos ⟨hslot, hserial⟩, loggedSince, hlog, List.drop_left]

theorem loggedOn_crashed (h : p.net.crashed = true) (os : List Occurrence) :
  loggedOn i s p os = []
  := by
  induction os with
  | nil => rfl
  | cons o os ih =>
    rw [loggedOn_still fun _ => occur_crashed h o, occur_crashed h]
    exact ih

/-- Nothing comes of a connection that is not in its slot any more. -/
theorem loggedOn_gone (hlt : s < p.net.nextSerial) (h : NodeNet.serialIn p.net i ≠ some s)
    (os : List Occurrence) :
  loggedOn i s p os = []
  := by
  induction os generalizing p with
  | nil => rfl
  | cons o os ih =>
    have hnet := (occur_happens p o).net
    rw [loggedOn, if_neg fun hon => h hon.2, List.nil_append]
    apply ih (lt_of_lt_of_le hlt hnet.nextSerial)
    intro hserial
    rcases hnet.serial hserial with hbefore | hnew
    · exact h hbefore
    · omega

/-! ### Connections that were not opened -/

/-- The slot `i` holds a connection with the serial `s`, whose socket is not connected. -/
def Dormant (net : NodeNet) (i : Fin maxOpenConnections) (s : ℕ) : Prop :=
  ∃ b, (net.connections i).bev = some b ∧ b.serial = s ∧ b.enabled = false

theorem Dormant.taken (h : Dormant net i s) :
  (net.connections i).bev ≠ none
  := by
  obtain ⟨b, hb, -⟩ := h
  rw [hb]
  exact Option.some_ne_none b

theorem Dormant.isEnabled (h : Dormant net i s) :
  net.isEnabled i = false
  := by
  obtain ⟨b, hb, -, henabled⟩ := h
  rw [NodeNet.isEnabled_of_bev hb, henabled]

theorem Dormant.serialIn (h : Dormant net i s) :
  NodeNet.serialIn net i = some s
  := by
  obtain ⟨b, hb, hserial, -⟩ := h
  rw [NodeNet.serialIn, hb, Option.map_some, hserial]

theorem Dormant.congr (h : Dormant net i s)
    (hkept : NodeSlot.kept (net'.connections i) = NodeSlot.kept (net.connections i)) :
  Dormant net' i s
  := by
  obtain ⟨b, hb, hserial, henabled⟩ := h
  simp only [NodeSlot.kept, NetConnection.mk.injEq, hb, Option.map_some] at hkept
  obtain ⟨b', hb', heq⟩ := Option.map_eq_some_iff.mp hkept.1
  rw [Bufferevent.mk.injEq] at heq
  exact ⟨b', hb', heq.1.trans hserial, heq.2.2.2.2.1.trans henabled⟩

/-- Nothing comes of a connection that was not opened. -/
theorem Dormant.loggedOn (h : Dormant p.net i s) (happ : LeftAlone i s p os) :
  loggedOn i s p os = []
  := by
  induction os generalizing p with
  | nil => rfl
  | cons o os ih =>
    have hstill : o.slot = some i → p.occur o = p := occur_disabled h.isEnabled
    rw [loggedOn_still hstill]
    apply ih _ happ.2
    by_cases hslot : o.slot = some i
    · rw [hstill hslot]
      exact h
    · exact h.congr (occur_kept p hslot (happ.1 h.serialIn) h.taken)

/-! ### Write callbacks -/

/-- No write callback is one of the node's own. -/
def AppWrites (net : NodeNet) : Prop :=
  ∀ i cb, (net.connections i).writeCb = some cb → ∃ k, cb = .app k

/-- Whatever is done to a slot, its write callback is the application's. -/
theorem AppWrites.evolves {who : Origin} (h : AppWrites net) (hevolves : Evolves who net net') :
  AppWrites net'
  := by
  intro i
  refine hevolves.forall_slot
    (I := fun c => ∀ cb, c.writeCb = some cb → ∃ k, cb = .app k) ?_ h i
  intro n _ c c' hchange hc
  cases hchange with
  | setWriteCb cb =>
    intro cb' hcb'
    obtain ⟨k, -, rfl⟩ := Option.map_eq_some_iff.mp hcb'
    exact ⟨k, rfl⟩
  | dangle harg =>
    unfold NodeNet.dangle
    split
    · exact hc
    · exact hc
  | _ => exact hc

/-- Nothing is done by the node when an output buffer is drained. -/
theorem occur_drained (h : ∀ cb, (p.net.connections i).writeCb = some cb → ∃ k, cb = .app k) :
  p.occur (.drained i) = p
  := by
  have hcall : runDataCb p (netConnectionWriteCb p.net i.val) = p := by
    rw [netConnectionWriteCb_coe]
    cases hcb : (p.net.connections i).writeCb with
    | none => rfl
    | some cb =>
      obtain ⟨k, rfl⟩ := h cb hcb
      rfl
  rw [Process.occur]
  split
  · rfl
  · show (if p.net.isEnabled i then runDataCb p (netConnectionWriteCb p.net i.val) else p) = p
    rw [hcall, ite_self]

end
