import LibDht.Net.Arrivals
import LibDht.Net.Callbacks

/-!
# What a connection inherits

Closing a connection leaves its callbacks and its argument in the slot, and a connection that
the application makes there inherits those that it does not set. Here such connections are
found in the runs of a process: what they hold can be told from what the slot held when they
were made, and from the setters that the application has called.
-/

/-- When the application makes a connection, it leaves the field as it is. -/
def Occurrence.Skips (f : SlotField) : Occurrence → Prop
  | .create _ _ => True
  | .connectAndSend _ readCb eventCb cbArg =>
    match f with
    | .readCb => readCb = none
    | .writeCb => True
    | .evtCb => eventCb = none
    | .cbArg => cbArg = none
  | _ => False

/-- The application calls the setter of the field on the slot `i`. -/
def Occurrence.Sets (i : Fin maxOpenConnections) (f : SlotField) : Occurrence → Prop
  | .setReadCb connection _ => f = .readCb ∧ netSlot connection = some i
  | .setWriteCb connection _ => f = .writeCb ∧ netSlot connection = some i
  | .setEventCb connection _ => f = .evtCb ∧ netSlot connection = some i
  | .setCbArg connection _ => f = .cbArg ∧ netSlot connection = some i
  | _ => False

/-- The application has made the connection that is in the slot `i` after the run `os`. -/
def AppMade (p : NodeProcess) (os : List Occurrence) (i : Fin maxOpenConnections) : Prop :=
  ∃ before o after s, os = before ++ o :: after
    ∧ ((p.runIo before).net.connections i).bev = none ∧ o.origin = .foreign
    ∧ NodeNet.serialIn (p.runIo (before ++ [o])).net i = some s
    ∧ NodeNet.serialIn (p.runIo os).net i = some s

/-- The application has made the connection that is in the slot `i` after the run `os`. The slot
was as in `P` then, and the application has set none of the fields, then and later. -/
def Inherits (P : NodeSlot → Prop) (fields : List SlotField) (p : NodeProcess)
    (os : List Occurrence) (i : Fin maxOpenConnections) : Prop :=
  ∃ before o after s, os = before ++ o :: after
    ∧ ((p.runIo before).net.connections i).bev = none ∧ o.origin = .foreign
    ∧ NodeNet.serialIn (p.runIo (before ++ [o])).net i = some s
    ∧ NodeNet.serialIn (p.runIo os).net i = some s
    ∧ P ((p.runIo before).net.connections i)
    ∧ (∀ f ∈ fields, o.Skips f) ∧ ∀ o' ∈ after, ∀ f ∈ fields, ¬ o'.Sets i f

namespace ConnectionEvent

/-- A callback of the connection in the slot `i` is due. -/
def Due (p : NodeProcess) (i : Fin maxOpenConnections) : ConnectionEvent → Prop
  | .data bytes =>
    p.net.crashed = false ∧ ∃ b, (p.net.connections i).bev = some b ∧ b.enabled = true
      ∧ bytes ≠ [] ∧ b.low ≤ (b.input ++ bytes).length
  | .event _ => p.net.crashed = false ∧ p.net.isEnabled i = true

/-- The field with the callback that is called. -/
def field : ConnectionEvent → SlotField
  | .data _ => .readCb
  | .event _ => .evtCb

end ConnectionEvent

/-! ### The tables of runs -/

/-- While a slot has a message for the application as argument, its callbacks are not those of a
request. -/
def NodeSlot.Deferred (c : NodeSlot) : Prop :=
  ∀ type len, c.upperCbArg = some (.msg type len) →
    (∀ d ∈ c.readCb, ¬ d.ReadsReply) ∧ c.evtCb ≠ some .nodeCheckNodeEvent

/-- What holds of the table of a node in every run. -/
structure Steady (net : NodeNet) : Prop where
  numbered : net.Numbered
  writes : AppWrites net
  deferred : ∀ i, NodeSlot.Deferred (net.connections i)

section

variable {p : NodeProcess} {i : Fin maxOpenConnections} {s n : ℕ} {o : Occurrence}
  {os : List Occurrence} {net net' : NodeNet} {who : Origin} {c c' : NodeSlot}

theorem NodeSlot.Deferred.change (h : c.Deferred) (hchange : SlotChange who n c c') :
  c'.Deferred
  := by
  intro type len harg
  cases hchange with
  | modifyBev hf => exact h type len harg
  | close => exact h type len harg
  | request i hb msg hrequest hwho =>
    cases hrequest with
    | find data => cases harg
    | notify => cases harg
    | probe cb => cases harg
  | accept i hb hwho => cases harg
  | foreign i hb msg readCb eventCb cbArg hwho =>
    cases cbArg with
    | some a => cases harg
    | none =>
      obtain ⟨hread, hevt⟩ := h type len harg
      constructor
      · cases readCb with
        | none => exact hread
        | some k =>
          rintro d ⟨⟩
          exact not_false
      · cases eventCb with
        | none => exact hevt
        | some k =>
          intro heq
          cases heq
  | setReadCb hcb => exact ⟨hcb, (h type len harg).2⟩
  | setWriteCb cb => exact h type len harg
  | setEventCb cb =>
    refine ⟨(h type len harg).1, ?_⟩
    intro heq
    obtain ⟨k, -, hk⟩ := Option.map_eq_some_iff.mp heq
    cases hk
  | setCbArg cbArg =>
    obtain ⟨k, -, hk⟩ := Option.map_eq_some_iff.mp harg
    cases hk
  | defer type' len' =>
    constructor
    · rintro d ⟨⟩
      exact not_false
    · intro heq
      cases heq
  | @dangle arg hfreed =>
    rw [NodeNet.dangle] at harg ⊢
    split_ifs at harg ⊢
    · cases harg
    · exact h type len harg

namespace Steady

theorem evolves (h : Steady net) (hevolves : Evolves who net net') (hnum : net'.Numbered) :
  Steady net'
  where
  numbered := hnum
  writes := h.writes.evolves hevolves
  deferred := hevolves.forall_slot (fun _ _ _ _ hchange hc => hc.change hchange) h.deferred

theorem occur (h : Steady p.net) (o : Occurrence) :
  Steady (p.occur o).net
  := h.evolves (occur_evolves p o) ((occur_happens p o).net.numbered h.numbered)

theorem runIo (h : Steady p.net) (os : List Occurrence) :
  Steady (p.runIo os).net
  := by
  induction os generalizing p with
  | nil => exact h
  | cons o os ih => exact ih (h.occur o)

theorem calls (h : Steady net) (hcalls : Calls (fun _ => True) net net') :
  Steady net'
  := h.evolves hcalls.evolves
    ((hcalls.advances (R := fun _ => True) fun _ _ => trivial).numbered h.numbered)

end Steady

theorem steady_boot (s : NodeSelf) (outcome : ℕ → Outcome) :
  Steady (Process.boot s outcome).net
  where
  numbered := numbered_boot s outcome
  writes i cb hcb := by cases hcb
  deferred i type len harg := by cases harg

/-! ### Runs -/

theorem runIo_snoc (p : NodeProcess) (os : List Occurrence) (o : Occurrence) :
  p.runIo (os ++ [o]) = (p.runIo os).occur o
  := List.foldl_append

theorem runIo_nextSerial (p : NodeProcess) (os os' : List Occurrence) :
  (p.runIo os).net.nextSerial ≤ (p.runIo (os ++ os')).net.nextSerial
  := by
  induction os' using List.reverseRecOn with
  | nil => rw [List.append_nil]
  | append_singleton os' o ih =>
    rw [← List.append_assoc, runIo_snoc]
    exact ih.trans (occur_happens _ o).net.nextSerial

/-- A process that runs has run before. -/
theorem running_of_occur (h : (p.occur o).net.crashed = false) :
  p.net.crashed = false
  := by
  rw [Bool.eq_false_iff]
  intro hcrashed
  rw [occur_crashed hcrashed, hcrashed] at h
  cases h

/-- A connection that is in its slot has been there since it was made. -/
theorem serialIn_of_occur (hlt : s < p.net.nextSerial)
    (h : NodeNet.serialIn (p.occur o).net i = some s) :
  NodeNet.serialIn p.net i = some s
  := by
  rcases (occur_happens p o).net.serial h with hbefore | hnew
  · exact hbefore
  · omega

theorem serialIn_ne_none {s : ℕ} (h : NodeNet.serialIn net i = some s) :
  (net.connections i).bev ≠ none
  := by
  intro hnone
  rw [NodeNet.serialIn, hnone] at h
  cases h

theorem serialIn_of_kept
    (h : NodeSlot.kept (net'.connections i) = NodeSlot.kept (net.connections i)) :
  NodeNet.serialIn net' i = NodeNet.serialIn net i
  := by
  have hbev := congrArg (fun c => c.bev.map Bufferevent.serial) h
  simpa [NodeSlot.kept, NodeNet.serialIn, Function.comp_def] using hbev

/-- A callback is due on a connection of a process that runs. -/
theorem ConnectionEvent.Due.serialIn {e : ConnectionEvent} (h : e.Due p i) :
  p.net.crashed = false ∧ ∃ s, NodeNet.serialIn p.net i = some s
  := by
  cases e with
  | data bytes =>
    obtain ⟨hrun, b, hb, -⟩ := h
    exact ⟨hrun, b.serial, by rw [NodeNet.serialIn, hb, Option.map_some]⟩
  | event what =>
    obtain ⟨hrun, henabled⟩ := h
    refine ⟨hrun, ?_⟩
    cases hb : (p.net.connections i).bev with
    | none => simp [NodeNet.isEnabled, hb] at henabled
    | some b => exact ⟨b.serial, by rw [NodeNet.serialIn, hb, Option.map_some]⟩

/-! ### Fields that stay as they are -/

/-- The field is the same in both slots. -/
def SlotField.Same (c c' : NodeSlot) : SlotField → Prop
  | .readCb => c'.readCb = c.readCb
  | .writeCb => c'.writeCb = c.writeCb
  | .evtCb => c'.evtCb = c.evtCb
  | .cbArg => c'.upperCbArg = c.upperCbArg

theorem SlotField.Same.refl (f : SlotField) (c : NodeSlot) :
  f.Same c c
  := by
  cases f <;> rfl

theorem SlotField.Same.of_kept (h : c'.kept = c.kept) (f : SlotField) :
  f.Same c c'
  := by
  simp only [NodeSlot.kept, NetConnection.mk.injEq] at h
  obtain ⟨-, -, hread, hwrite, hevt, harg, -⟩ := h
  cases f
  · exact hread
  · exact hwrite
  · exact hevt
  · exact harg

theorem SlotField.Same.trans {f : SlotField} {c'' : NodeSlot} (h : f.Same c c')
    (h' : f.Same c' c'') :
  f.Same c c''
  := by
  cases f <;> exact Eq.trans h' h

/-- What leaves the fields of a slot leaves those of all. -/
theorem same_modify (net : NodeNet) (i j : Fin maxOpenConnections) {g : NodeSlot → NodeSlot}
    (f : SlotField) (hg : ∀ c, f.Same c (g c)) :
  f.Same (net.connections i) ((net.modify j g).connections i)
  := by
  unfold NetServer.modify
  dsimp only
  by_cases hij : i = j
  · subst hij
    rw [Function.update_self]
    exact hg _
  · rw [Function.update_of_ne hij]
    exact SlotField.Same.refl f _

/-- What is done to a `bufferevent` leaves the fields. -/
theorem same_modifyBev (net : NodeNet) (i j : Fin maxOpenConnections)
    (g : Bufferevent → Bufferevent) (f : SlotField) :
  f.Same (net.connections i) ((net.modifyBev j g).connections i)
  := by
  apply same_modify
  intro c
  cases f <;> rfl

theorem same_close (net : NodeNet) (connection : ℤ) (i : Fin maxOpenConnections) (f : SlotField) :
  f.Same (net.connections i) ((netConnectionClose net connection).connections i)
  := by
  rw [netConnectionClose]
  split
  · apply same_modify
    intro c
    cases f <;> rfl
  · exact SlotField.Same.refl f _

theorem same_setInput (p : NodeProcess) (i : Fin maxOpenConnections) (rest : List UInt8)
    (f : SlotField) :
  f.Same (p.net.connections i) ((p.setInput i rest).net.connections i)
  := same_modifyBev p.net i i _ f

theorem netConnectionGetBuffer_connections (net : NodeNet) (connection : ℤ) :
  (netConnectionGetBuffer net connection).2.connections = net.connections
  := by
  rw [netConnectionGetBuffer]
  split
  · rfl
  · split <;> rfl

/-- Sending a message leaves the fields. -/
theorem same_nodeSendMessage (net : NodeNet) (msg : NodeMessage) (connection : ℤ)
    (i : Fin maxOpenConnections) (f : SlotField) :
  f.Same (net.connections i) ((nodeSendMessage net msg connection).2.connections i)
  := by
  have hbuffer := netConnectionGetBuffer_connections net connection
  rw [nodeSendMessage]
  split
  · rename_i hbuf
    rw [hbuf] at hbuffer
    rw [hbuffer]
    exact SlotField.Same.refl f _
  · rename_i j b net' hbuf
    rw [hbuf] at hbuffer
    rw [← hbuffer]
    have hwrite : f.Same (net'.connections i) ((net'.ask.2.write j msg.text).connections i) :=
      same_modifyBev net'.ask.2 i j _ f
    dsimp only
    split
    · exact SlotField.Same.refl f _
    · rw [netConnectionActivate]
      split
      · exact hwrite
      · split
        · exact hwrite
        · dsimp only
          split
          · exact hwrite.trans (same_close _ connection i f)
          · exact hwrite.trans (same_modifyBev _ i _ _ f)

/-- Of the fields of a connection that the application does something to, those stay as they are
whose setter is not called. -/
theorem occur_same_of_named {f : SlotField} (hnamed : o.named = some i) (hset : ¬ o.Sets i f)
    (hopen : ((p.occur o).net.connections i).bev ≠ none) :
  f.Same (p.net.connections i) ((p.occur o).net.connections i)
  := by
  by_cases hcrashed : p.net.crashed = true
  · rw [occur_crashed hcrashed]
    exact SlotField.Same.refl f _
  rw [Process.occur_of_running (Bool.eq_false_iff.mpr hcrashed)] at hopen ⊢
  cases o with
  | send msg connection => exact same_nodeSendMessage p.net msg connection i f
  | setReadCb connection cb =>
    rw [Occurrence.named] at hnamed
    simp only [Occurrence.handle, netConnectionSetReadCb, netConnectionSet, hnamed,
      NetServer.modify, Function.update_self]
    cases f with
    | readCb => exact absurd ⟨rfl, hnamed⟩ hset
    | _ => rfl
  | setWriteCb connection cb =>
    rw [Occurrence.named] at hnamed
    simp only [Occurrence.handle, netConnectionSetWriteCb, netConnectionSet, hnamed,
      NetServer.modify, Function.update_self]
    cases f with
    | writeCb => exact absurd ⟨rfl, hnamed⟩ hset
    | _ => rfl
  | setEventCb connection cb =>
    rw [Occurrence.named] at hnamed
    simp only [Occurrence.handle, netConnectionSetEventCb, netConnectionSet, hnamed,
      NetServer.modify, Function.update_self]
    cases f with
    | evtCb => exact absurd ⟨rfl, hnamed⟩ hset
    | _ => rfl
  | setCbArg connection cbArg =>
    rw [Occurrence.named] at hnamed
    simp only [Occurrence.handle, netConnectionSetCbArg, netConnectionSet, hnamed,
      NetServer.modify, Function.update_self]
    cases f with
    | cbArg => exact absurd ⟨rfl, hnamed⟩ hset
    | _ => rfl
  | close connection =>
    rw [Occurrence.named] at hnamed
    simp [Occurrence.handle, netConnectionClose, hnamed, NetServer.modify] at hopen
  | _ => cases hnamed

/-- What happens elsewhere leaves the fields of a connection. -/
theorem occur_same_of_elsewhere {f : SlotField} (hslot : o.slot ≠ some i)
    (hnamed : o.named ≠ some i) (htaken : (p.net.connections i).bev ≠ none) :
  f.Same (p.net.connections i) ((p.occur o).net.connections i)
  := SlotField.Same.of_kept (occur_kept p hslot hnamed htaken) f

/-- When data comes on a connection, it is kept in the input buffer, and the read callback is
called or not. -/
theorem occur_data_cases (p : NodeProcess) (i : Fin maxOpenConnections) (bytes : List UInt8) :
  p.occur (.data i bytes) = p
    ∨ ∃ input, p.occur (.data i bytes) = p.setInput i input
      ∨ p.occur (.data i bytes) = runDataCb (p.setInput i input)
        ((p.net.connections i).readCb.map fun cb =>
          (cb, (i.val : ℤ), (p.net.connections i).upperCbArg))
  := by
  by_cases hcrashed : p.net.crashed = true
  · exact Or.inl (occur_crashed hcrashed _)
  rw [Process.occur_of_running (Bool.eq_false_iff.mpr hcrashed), Occurrence.handle, arrive]
  split
  · rename_i b hb
    split
    · exact Or.inl rfl
    · right
      refine ⟨b.input ++ bytes, ?_⟩
      dsimp only
      split
      · exact Or.inl rfl
      · right
        rw [netConnectionReadCb_coe, Process.setInput_connections_self]
  · exact Or.inl rfl

/-- An event callback is called or not. -/
theorem occur_event_cases (p : NodeProcess) (i : Fin maxOpenConnections) (what : UInt16) :
  p.occur (.event i what) = p
    ∨ p.occur (.event i what) = runEventCb p what (netConnectionEventCb p.net i.val)
  := by
  by_cases hcrashed : p.net.crashed = true
  · exact Or.inl (occur_crashed hcrashed _)
  rw [Process.occur_of_running (Bool.eq_false_iff.mpr hcrashed), Occurrence.handle]
  split
  · exact Or.inr rfl
  · exact Or.inl rfl

/-! ### Connections that the application makes -/

/-- A connection that the application makes has what was in its slot before, but for what is set
with it. -/
theorem occur_makes (horigin : o.origin = .foreign) (hnone : (p.net.connections i).bev = none)
    (hmade : ((p.occur o).net.connections i).bev ≠ none) :
  ∃ b msg readCb eventCb cbArg, (p.occur o).net.connections i
      = taken (p.net.connections i) i b msg (Option.map DataCb.app readCb)
        (Option.map EventCb.app eventCb) (Option.map CbArg.app cbArg)
    ∧ (o.Skips .readCb ↔ readCb = none) ∧ (o.Skips .evtCb ↔ eventCb = none)
    ∧ (o.Skips .cbArg ↔ cbArg = none)
  := by
  by_cases hcrashed : p.net.crashed = true
  · rw [occur_crashed hcrashed] at hmade
    exact absurd hnone hmade
  rw [Process.occur_of_running (Bool.eq_false_iff.mpr hcrashed)] at hmade ⊢
  -- only the first empty slot changes
  have hslot : ∀ {j : Fin maxOpenConnections} {c : NodeSlot},
      (Function.update p.net.connections j c i).bev ≠ none → i = j := by
    intro j c hbev
    by_contra hij
    rw [Function.update_of_ne hij] at hbev
    exact hbev hnone
  cases o with
  | create IP port =>
    simp only [Occurrence.handle] at hmade ⊢
    cases hj : netEmptyConnectionSlot p.net with
    | none =>
      rw [netConnectionCreate, hj] at hmade
      exact absurd hnone hmade
    | some j =>
      rw [netConnectionCreate_of_slot hj] at hmade ⊢
      split_ifs at hmade ⊢ with hbev hmalloc
      · obtain rfl := hslot hmade
        refine ⟨p.net.freshBev IP, ⟨⟨0, IP, port⟩, 0, 0, none⟩, none, none, none, ?_, ?_⟩
        · exact Function.update_self ..
        · simp [Occurrence.Skips]
      · obtain rfl := hslot hmade
        simp at hmade
      · exact absurd hnone hmade
  | connectAndSend msg readCb eventCb cbArg =>
    simp only [Occurrence.handle] at hmade ⊢
    have hattempt := nodeConnectAndSendMessage_attempt p.net msg (readCb.map DataCb.app)
      (eventCb.map EventCb.app) (cbArg.map CbArg.app)
    generalize nodeConnectAndSendMessage p.net msg _ _ _ = result at hattempt hmade ⊢
    cases hattempt with
    | none calls => exact absurd hnone hmade
    | lost hj calls =>
      obtain rfl := hslot hmade
      simp at hmade
    | refused hj calls =>
      obtain rfl := hslot hmade
      simp at hmade
    | unsent hj calls =>
      obtain rfl := hslot hmade
      exact ⟨_, msg, readCb, eventCb, cbArg, Function.update_self .., Iff.rfl, Iff.rfl, Iff.rfl⟩
    | sent hj calls =>
      obtain rfl := hslot hmade
      exact ⟨_, msg, readCb, eventCb, cbArg, Function.update_self .., Iff.rfl, Iff.rfl, Iff.rfl⟩
  | _ => cases horigin

/-- Before anything happens the application has made no connection. -/
theorem not_inherits_nil {P : NodeSlot → Prop} {fields : List SlotField} :
  ¬ Inherits P fields p [] i
  := by
  rintro ⟨before, o, after, s, heq, -⟩
  simp at heq

/-- A connection of the application stays one. -/
theorem AppMade.snoc (h : AppMade p os i)
    (hs : NodeNet.serialIn (p.runIo (os ++ [o])).net i = NodeNet.serialIn (p.runIo os).net i) :
  AppMade p (os ++ [o]) i
  := by
  obtain ⟨before, o', after, s, rfl, hnone, horigin, hmade, hold⟩ := h
  refine ⟨before, o', after ++ [o], s, ?_, hnone, horigin, hmade, hs.trans hold⟩
  rw [List.append_assoc, List.cons_append]

/-- The application makes its connections in slots that are empty. -/
theorem appMade_snoc (horigin : o.origin = .foreign)
    (hold : NodeNet.serialIn (p.runIo os).net i ≠ some s)
    (hs : NodeNet.serialIn ((p.runIo os).occur o).net i = some s) :
  AppMade p (os ++ [o]) i
  := by
  rw [← runIo_snoc] at hs
  refine ⟨os, o, [], s, rfl, ?_, horigin, hs, hs⟩
  by_contra htaken
  apply hold
  have hown : o.slot = none ∧ o.named = none := by
    cases o with
    | create IP port => exact ⟨rfl, rfl⟩
    | connectAndSend msg readCb eventCb cbArg => exact ⟨rfl, rfl⟩
    | _ => cases horigin
  have hkept := occur_kept (p.runIo os) (o := o) (i := i) (by simp [hown.1]) (by simp [hown.2]) htaken
  rw [← runIo_snoc] at hkept
  rw [← hs]
  exact (serialIn_of_kept hkept).symm

/-- A change that leaves a connection in its slot was made to it, when it is older than those that
are made. -/
theorem SlotChange.serial_of (hchange : SlotChange who n c c') (hlt : s < n)
    (hs : c'.bev.map Bufferevent.serial = some s) :
  c.bev.map Bufferevent.serial = some s
  := by
  have htaken : ∀ {b : Bufferevent}, b.serial = n → ¬ b.serial = s := by
    intro b hb
    omega
  cases hchange with
  | modifyBev hf =>
    obtain ⟨b', hb', rfl⟩ := Option.map_eq_some_iff.mp hs
    obtain ⟨b, hb, rfl⟩ := Option.map_eq_some_iff.mp hb'
    rw [hb, Option.map_some, hf]
  | close => cases hs
  | request i hb msg hrequest hwho => exact absurd (Option.some.inj hs) (htaken hb)
  | accept i hb hwho => exact absurd (Option.some.inj hs) (htaken hb)
  | foreign i hb msg readCb eventCb cbArg hwho => exact absurd (Option.some.inj hs) (htaken hb)
  | dangle hfreed =>
    rw [NodeNet.dangle_bev] at hs
    exact hs
  | _ => exact hs

/-- What a change keeps away from a connection is not there unless it was before. -/
theorem occur_back {P : NodeSlot → Prop} (h : Steady p.net)
    (hback : ∀ {n c c'}, SlotChange o.origin n c c' → p.net.nextSerial ≤ n → c.Deferred →
      c'.bev.map Bufferevent.serial = some s → P c' →
        P c ∧ c.bev.map Bufferevent.serial = some s)
    (hs : NodeNet.serialIn (p.occur o).net i = some s)
    (hP : P ((p.occur o).net.connections i)) :
  P (p.net.connections i) ∧ NodeNet.serialIn p.net i = some s
  := by
  by_contra hnot
  have hslot : ∀ j, NodeSlot.Deferred (p.net.connections j)
      ∧ ¬ (P (p.net.connections j) ∧ NodeNet.serialIn p.net j = some s) := by
    intro j
    refine ⟨h.deferred j, ?_⟩
    rintro ⟨hPj, hj⟩
    obtain rfl := h.numbered.eq hj (serialIn_of_occur (h.numbered.lt hj) hs)
    exact hnot ⟨hPj, hj⟩
  have hafter := (occur_evolves p o).forall_slot
    (I := fun c => c.Deferred ∧ ¬ (P c ∧ c.bev.map Bufferevent.serial = some s)) ?_ hslot i
  · exact hafter.2 ⟨hP, hs⟩
  · rintro n hn c c' hchange ⟨hdeferred, hno⟩
    refine ⟨hdeferred.change hchange, ?_⟩
    rintro ⟨hP', hs'⟩
    exact hno (hback hchange hn hdeferred hs' hP')

/-- What a slot holds that a connection can inherit: it is there after the connection is made
when it was there before and the fields are skipped, and it stays until a setter of one of the
fields is called. -/
structure Inheritable (P : NodeSlot → Prop) (fields : List SlotField) : Prop where
  made : ∀ {p o i}, o.origin = .foreign → (p.net.connections i).bev = none →
    ((Process.occur p o).net.connections i).bev ≠ none →
    (P ((p.occur o).net.connections i) ↔ P (p.net.connections i) ∧ ∀ f ∈ fields, o.Skips f)
  kept : ∀ {p o i s}, Steady p.net → (Process.occur p o).net.crashed = false →
    NodeNet.serialIn p.net i = some s → NodeNet.serialIn (p.occur o).net i = some s →
    (P ((p.occur o).net.connections i) ↔ P (p.net.connections i) ∧ ∀ f ∈ fields, ¬ o.Sets i f)

/-- As long as a connection is in its slot that the application made by `o`, it holds what was
there before, unless it was set by `o` or later. -/
theorem Inheritable.holds_iff {P : NodeSlot → Prop} {fields : List SlotField}
    (h : Inheritable P fields) (hp : Steady p.net) {before after : List Occurrence}
    (hnone : ((p.runIo before).net.connections i).bev = none) (horigin : o.origin = .foreign)
    (hmade : NodeNet.serialIn (p.runIo (before ++ [o])).net i = some s)
    (hrun : (p.runIo (before ++ o :: after)).net.crashed = false)
    (hs : NodeNet.serialIn (p.runIo (before ++ o :: after)).net i = some s) :
  P ((p.runIo (before ++ o :: after)).net.connections i)
    ↔ P ((p.runIo before).net.connections i)
      ∧ (∀ f ∈ fields, o.Skips f) ∧ ∀ o' ∈ after, ∀ f ∈ fields, ¬ o'.Sets i f
  := by
  induction after using List.reverseRecOn with
  | nil =>
    have hopen := serialIn_ne_none hmade
    rw [runIo_snoc] at hopen ⊢
    rw [h.made horigin hnone hopen]
    simp
  | append_singleton after o' ih =>
    have hsplit : before ++ o :: (after ++ [o']) = before ++ o :: after ++ [o'] := by simp
    have hlt : s < (p.runIo (before ++ o :: after)).net.nextSerial := by
      have hle := runIo_nextSerial p (before ++ [o]) after
      rw [List.append_assoc] at hle
      exact lt_of_lt_of_le ((hp.runIo _).numbered.lt hmade) hle
    rw [hsplit, runIo_snoc] at hrun hs ⊢
    have hs' := serialIn_of_occur hlt hs
    rw [h.kept (hp.runIo _) hrun hs' hs, ih (running_of_occur hrun) hs']
    simp only [List.mem_append, List.mem_singleton, or_imp, forall_and, forall_eq, and_assoc]

/-- A connection of the application holds what can be inherited exactly when it has inherited
it. -/
theorem Inheritable.inherits_iff {P : NodeSlot → Prop} {fields : List SlotField}
    (h : Inheritable P fields) (hp : Steady p.net) (hrun : (p.runIo os).net.crashed = false) :
  AppMade p os i ∧ P ((p.runIo os).net.connections i) ↔ Inherits P fields p os i
  := by
  constructor
  · rintro ⟨⟨before, o, after, s, rfl, hnone, horigin, hmade, hs⟩, hP⟩
    exact ⟨before, o, after, s, rfl, hnone, horigin, hmade, hs,
      (h.holds_iff hp hnone horigin hmade hrun hs).mp hP⟩
  · rintro ⟨before, o, after, s, rfl, hnone, horigin, hmade, hs, hP⟩
    exact ⟨⟨before, o, after, s, rfl, hnone, horigin, hmade, hs⟩,
      (h.holds_iff hp hnone horigin hmade hrun hs).mpr hP⟩

end
