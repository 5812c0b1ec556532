import LibDht.Net.WrittenIo

/-!
# Runs from different memory

Two processes that are the same when they are erased have done the same as far as anyone
can see: the same slots are taken, by connections to the same peers, the same bytes are in
their buffers, and the same callbacks were invoked. A step that reads only what has been
written keeps two processes so, and a run of such steps does, from any two memories that
`malloc` returned.

The connection table is not cleared when it is allocated, and the first slot that is taken
is one whose pointer is null in that memory; so the memory of the table is to be zero.
-/

/-! ### What happens to a process -/

/-- What happens to a process reads only what has been written. -/
def Occurrence.Written (entered : Bool) (p : NodeProcess) : Occurrence → Prop
  | .data i bytes =>
    ∀ b cb, (p.net.connections i).bev = some b → b.enabled = true → bytes ≠ [] →
      b.low ≤ (b.input ++ bytes).length → (p.net.connections i).readCb = some cb →
      CallWritten entered (p.setInput i (b.input ++ bytes)) { b with input := b.input ++ bytes } cb
        (p.net.connections i).upperCbArg
  | .drained i =>
    ∀ b cb, (p.net.connections i).bev = some b → b.enabled = true →
      (p.net.connections i).writeCb = some cb →
      CallWritten entered p b cb (p.net.connections i).upperCbArg
  | .event i _ =>
    ∀ b cb, (p.net.connections i).bev = some b → b.enabled = true →
      (p.net.connections i).evtCb = some cb → EventWritten cb (p.net.connections i).upperCbArg
  | .stabilise | .updateSuccs => ∃ k, p.node.Alive k
  | .fixFingers => FixFingersWritten p
  | .checkPred => entered = true
  | .joined joinedCbArg => JoinedWritten p joinedCbArg
  | .findSuccessor i arg => LookupWritten p i (.app arg)
  | _ => True

/-- Whether the node has entered a network afterwards. A process that has crashed does
nothing. -/
def Occurrence.enteredAfter (entered : Bool) (p : NodeProcess) : Occurrence → Bool
  | .networkCreate _ | .networkJoin _ _ => entered || !p.net.crashed
  | _ => entered

section

variable {entered : Bool} {p q : NodeProcess} {i : Fin maxOpenConnections} {b : Bufferevent}

/-! ### Two processes -/

/-- Two processes that are the same when they are erased have the same slots, but for
arguments that are the same when they are erased. -/
theorem slot_congr (hpq : p.erased entered = q.erased entered) (i : Fin maxOpenConnections) :
  (p.net.connections i).bev = (q.net.connections i).bev
    ∧ (p.net.connections i).readCb = (q.net.connections i).readCb
    ∧ (p.net.connections i).writeCb = (q.net.connections i).writeCb
    ∧ (p.net.connections i).evtCb = (q.net.connections i).evtCb
    ∧ (p.net.connections i).upperCbArg.map CbArg.erased
      = (q.net.connections i).upperCbArg.map CbArg.erased
  := by
  have hnet : NodeNet.erased p.net = NodeNet.erased q.net := congrArg Process.net hpq
  have hslot : (p.net.connections i).erased CbArg.erased
      = (q.net.connections i).erased CbArg.erased :=
    congrFun (congrArg NetServer.connections hnet) i
  simp only [NetConnection.erased, NetConnection.mk.injEq] at hslot
  obtain ⟨hbev, -, hread, hwrite, hevt, harg, -⟩ := hslot
  exact ⟨hbev, hread, hwrite, hevt, harg⟩

theorem crashed_congr (hpq : p.erased entered = q.erased entered) :
  p.net.crashed = q.net.crashed
  := by
  have hnet : NodeNet.erased p.net = NodeNet.erased q.net := congrArg Process.net hpq
  have hcrashed := congrArg NetServer.crashed hnet
  exact hcrashed

/-- An argument that is no record for a reply. -/
theorem nodeFoundRemoteCb_crash (connection : ℤ) {arg : Option CbArg}
    (harg : ∀ data, arg.map CbArg.erased ≠ some (.found data)) :
  nodeFoundRemoteCb p connection arg = p.crash
  := by
  rcases arg with _ | (_ | data | cb | ⟨type, len⟩ | n | _)
  · rfl
  · rfl
  · exact absurd rfl (harg data.erased)
  all_goals rfl

/-- A record for a reply is erased to one. -/
theorem exists_of_erased_eq {arg : Option CbArg} {data : NodeFoundCbData}
    (h : arg.map CbArg.erased = some (.found data)) :
  ∃ data', arg = some (.found data') ∧ data'.erased = data
  := by
  rcases arg with _ | (_ | data' | cb | ⟨type, len⟩ | n | _)
  · cases h
  · cases h
  · exact ⟨data', rfl, CbArg.found.inj (Option.some.inj h)⟩
  all_goals cases h

/-- A callback for data does the same in both. -/
theorem runDataCb_congr (hpq : p.erased entered = q.erased entered)
    (hb : (p.net.connections i).bev = some b) {cb : DataCb}
    (hp : CallWritten entered p b cb (p.net.connections i).upperCbArg)
    (hq : CallWritten entered q b cb (q.net.connections i).upperCbArg) :
  (runDataCb p (some (cb, i.val, (p.net.connections i).upperCbArg))).erased entered
    = (runDataCb q (some (cb, i.val, (q.net.connections i).upperCbArg))).erased entered
  := by
  obtain ⟨hbev, -, -, -, harg⟩ := slot_congr hpq i
  have hb' : (q.net.connections i).bev = some b := hbev.symm.trans hb
  by_cases hcb : cb = .nodeFoundRemoteCb
  · subst hcb
    by_cases hrecord : ∃ data, (p.net.connections i).upperCbArg.map CbArg.erased
        = some (.found data)
    · obtain ⟨data, hdata⟩ := hrecord
      obtain ⟨d, hd, hsame⟩ := exists_of_erased_eq hdata
      obtain ⟨d', hd', hsame'⟩ := exists_of_erased_eq (harg.symm.trans hdata)
      rw [hd] at hp ⊢
      rw [hd'] at hq ⊢
      rw [runDataCb, runDataCb, nodeFoundRemoteCb_erased hb hd hp,
        nodeFoundRemoteCb_erased hb' hd' hq, hpq, hsame, hsame']
    · have hnone : ∀ data, (p.net.connections i).upperCbArg.map CbArg.erased
          ≠ some (.found data) := fun data hdata => hrecord ⟨data, hdata⟩
      rw [runDataCb, runDataCb, nodeFoundRemoteCb_crash _ hnone,
        nodeFoundRemoteCb_crash _ fun data => harg ▸ hnone data, ← Process.crash_erased,
        ← Process.crash_erased, hpq]
  · rw [← runDataCb_erased hcb hb hp, ← runDataCb_erased hcb hb' hq, hpq, harg]

/-! ### What happens to two processes -/

/-- The callback for data of a slot is called in the same way. -/
theorem call_congr (hpq : p.erased entered = q.erased entered)
    (hb : (p.net.connections i).bev = some b) {cb cb' : Option DataCb} (hcb : cb = cb')
    (hp : ∀ c, cb = some c → CallWritten entered p b c (p.net.connections i).upperCbArg)
    (hq : ∀ c, cb' = some c → CallWritten entered q b c (q.net.connections i).upperCbArg) :
  (runDataCb p (cb.map fun c => (c, (i.val : ℤ), (p.net.connections i).upperCbArg))).erased entered
    = (runDataCb q (cb'.map fun c =>
        (c, (i.val : ℤ), (q.net.connections i).upperCbArg))).erased entered
  := by
  subst hcb
  cases cb with
  | none => exact hpq
  | some c => exact runDataCb_congr hpq hb (hp c rfl) (hq c rfl)

theorem readCb_setInput (p : NodeProcess) (i : Fin maxOpenConnections) (l : List UInt8) :
  netConnectionReadCb (p.setInput i l).net i.val
    = (p.net.connections i).readCb.map fun c =>
      (c, (i.val : ℤ), ((p.setInput i l).net.connections i).upperCbArg)
  := by
  rw [netConnectionReadCb_coe, Process.setInput_connections_self]

/-- Bytes that arrive are dealt with in the same way. -/
theorem arrive_congr (hpq : p.erased entered = q.erased entered) (bytes : List UInt8)
    (hp : (Occurrence.data i bytes).Written entered p)
    (hq : (Occurrence.data i bytes).Written entered q) :
  (arrive p i bytes).erased entered = (arrive q i bytes).erased entered
  := by
  obtain ⟨hbev, hread, -, -, -⟩ := slot_congr hpq i
  rw [arrive, arrive, ← hbev, ← crashed_congr hpq]
  cases hb : (p.net.connections i).bev with
  | none => exact hpq
  | some b =>
    dsimp only
    by_cases hidle : (p.net.crashed || !b.enabled || bytes.isEmpty) = true
    · rw [if_pos hidle, if_pos hidle]
      exact hpq
    · rw [if_neg hidle, if_neg hidle]
      have hinput : (p.setInput i (b.input ++ bytes)).erased entered
          = (q.setInput i (b.input ++ bytes)).erased entered := by
        rw [← Process.setInput_erased, ← Process.setInput_erased, hpq]
      by_cases hlow : (b.input ++ bytes).length < b.low
      · rw [if_pos hlow, if_pos hlow]
        exact hinput
      · rw [if_neg hlow, if_neg hlow]
        simp only [Bool.or_eq_true, Bool.not_eq_true', not_or, Bool.not_eq_true,
          Bool.not_eq_false, List.isEmpty_eq_false_iff] at hidle
        obtain ⟨⟨-, henabled⟩, hbytes⟩ := hidle
        have hb' := hbev.symm.trans hb
        have hlow' : b.low ≤ (b.input ++ bytes).length := not_lt.mp hlow
        rw [readCb_setInput, readCb_setInput]
        apply call_congr hinput (setInput_bev hb _) hread
        · intro c hc
          rw [Process.setInput_connections_self]
          exact hp b c hb henabled hbytes hlow' hc
        · intro c hc
          rw [Process.setInput_connections_self]
          exact hq b c hb' henabled hbytes hlow' hc

/-- A write buffer that is drained is dealt with in the same way. -/
theorem drained_congr (hpq : p.erased entered = q.erased entered)
    (hp : (Occurrence.drained i).Written entered p)
    (hq : (Occurrence.drained i).Written entered q) :
  ((Occurrence.drained i).handle p).erased entered
    = ((Occurrence.drained i).handle q).erased entered
  := by
  obtain ⟨hbev, -, hwrite, -, -⟩ := slot_congr hpq i
  rw [Occurrence.handle, Occurrence.handle, NodeNet.isEnabled, NodeNet.isEnabled, ← hbev,
    netConnectionWriteCb_coe, netConnectionWriteCb_coe]
  cases hb : (p.net.connections i).bev with
  | none => exact hpq
  | some b =>
    have hb' := hbev.symm.trans hb
    rw [Option.any_some]
    cases henabled : b.enabled with
    | false => exact hpq
    | true =>
      exact call_congr hpq hb hwrite (fun c hc => hp b c hb henabled hc)
        (fun c hc => hq b c hb' henabled hc)

theorem enteredAfter_congr (hpq : p.erased entered = q.erased entered) (o : Occurrence) :
  o.enteredAfter entered p = o.enteredAfter entered q
  := by
  have hcrashed := crashed_congr hpq
  cases o <;> simp [Occurrence.enteredAfter, hcrashed]

/-- An event of a connection is dealt with no matter what memory holds. -/
theorem event_erased (i : Fin maxOpenConnections) (what : UInt16) :
  (Occurrence.event i what).handle (p.erased entered)
    = ((Occurrence.event i what).handle p).erased entered
  := by
  have henabled : NodeNet.isEnabled (p.erased entered).net i = p.net.isEnabled i := rfl
  have hcall : netConnectionEventCb (p.erased entered).net i.val
      = (p.net.connections i).evtCb.map fun c =>
        (c, (i.val : ℤ), (p.net.connections i).upperCbArg.map CbArg.erased) := by
    rw [netConnectionEventCb_coe]
    rfl
  rw [Occurrence.handle, Occurrence.handle, henabled, hcall, netConnectionEventCb_coe]
  split_ifs
  · cases (p.net.connections i).evtCb with
    | none => rfl
    | some c => exact runEventCb_erased what c i.val _
  · rfl

/-- What happens that is not data does to an erased process what it does to the process. -/
theorem handle_erased {o : Occurrence} (hdata : ∀ i bytes, o ≠ .data i bytes)
    (hdrained : ∀ i, o ≠ .drained i) (hcrashed : p.net.crashed = false)
    (h : o.Written entered p) :
  o.handle (p.erased entered) = (o.handle p).erased (o.enteredAfter entered p)
  := by
  have hentered : (entered || !p.net.crashed) = true := by simp [hcrashed]
  have hnet {net net' : NodeNet} (hnet : net' = NodeNet.erased net) :
      { p.erased entered with net := net' }
        = ({ p with net := net } : NodeProcess).erased entered :=
    congrArg (fun net => ({ p.erased entered with net := net } : NodeProcess)) hnet
  have happ (arg : Option ℕ) : (arg.map CbArg.app).map CbArg.erased = arg.map CbArg.app := by
    cases arg with
    | none => rfl
    | some n => rfl
  cases o with
  | data i bytes => exact absurd rfl (hdata i bytes)
  | drained i => exact absurd rfl (hdrained i)
  | event i what => exact event_erased i what
  | accept peer =>
    exact hnet (listenEvtCb_erased (f := CbArg.erased) p.net peer DataCb.incomingReadCb
      EventCb.incomingEventCb .self)
  | stabilise => exact nodeNetworkStabalize_erased h
  | fixFingers => exact nodeFixFingers_erased h
  | checkPred =>
    obtain rfl : entered = true := h
    exact nodeCheckPredecessor_erased
  | checkSuccs => exact nodeCheckSuccessors_erased
  | updateSuccs => exact nodeUpdateSuccs_erased h
  | setNodeMsgHandler cb cbArg => exact nodeSetNodeMsgHandler_erased cb cbArg
  | joined arg => exact nodeNetworkJoined_erased h
  | networkCreate arg =>
    rw [Occurrence.enteredAfter, hentered]
    exact nodeNetworkCreate_erased arg
  | networkJoin node arg =>
    rw [Occurrence.enteredAfter, hentered]
    exact nodeNetworkJoin_erased node arg
  | findSuccessor i arg =>
    have hcb : (FoundCb.app arg).Passive := trivial
    exact congrArg Prod.snd (nodeFindSuccessor_erased hcb (by simp) h)
  | connectAndSend msg readCb eventCb cbArg =>
    have hsend := nodeConnectAndSendMessage_erased (f := CbArg.erased) p.net msg
      (readCb.map DataCb.app) (eventCb.map EventCb.app) (cbArg.map CbArg.app)
    rw [happ] at hsend
    exact hnet (congrArg Prod.snd hsend)
  | send msg connection =>
    exact hnet (congrArg Prod.snd (nodeSendMessage_erased p.net msg connection))
  | create IP port => exact hnet (congrArg Prod.snd (netConnectionCreate_erased p.net IP port))
  | setReadCb connection cb =>
    exact hnet (congrArg Prod.snd (netConnectionSetReadCb_erased p.net connection (cb.map .app)))
  | setWriteCb connection cb =>
    exact hnet (congrArg Prod.snd (netConnectionSetWriteCb_erased p.net connection (cb.map .app)))
  | setEventCb connection cb =>
    exact hnet (congrArg Prod.snd (netConnectionSetEventCb_erased p.net connection (cb.map .app)))
  | setCbArg connection cbArg =>
    have hset := netConnectionSetCbArg_erased (f := CbArg.erased) p.net connection
      (cbArg.map CbArg.app)
    rw [happ] at hset
    exact hnet (congrArg Prod.snd hset)
  | close connection => exact Process.close_erased connection

/-- What happens to two processes does the same to both, when it reads only what has been
written. -/
theorem occur_congr (hpq : p.erased entered = q.erased entered) (o : Occurrence)
    (hp : p.net.crashed = false → o.Written entered p)
    (hq : q.net.crashed = false → o.Written entered q) :
  (p.occur o).erased (o.enteredAfter entered p) = (q.occur o).erased (o.enteredAfter entered q)
  := by
  have hsame := enteredAfter_congr hpq o
  have hcrash := crashed_congr hpq
  rw [Process.occur, Process.occur]
  cases hcrashed : p.net.crashed with
  | true =>
    have hentered : o.enteredAfter entered p = entered := by
      cases o <;> simp [Occurrence.enteredAfter, hcrashed]
    rw [← hsame, hentered, ← hcrash, hcrashed, if_pos rfl, if_pos rfl]
    exact hpq
  | false =>
    have hcrashed' : q.net.crashed = false := hcrash.symm.trans hcrashed
    have hp := hp hcrashed
    have hq := hq hcrashed'
    rw [hcrashed', if_neg Bool.false_ne_true, if_neg Bool.false_ne_true]
    by_cases hdata : ∃ i bytes, o = .data i bytes
    · obtain ⟨i, bytes, rfl⟩ := hdata
      exact arrive_congr hpq bytes hp hq
    · by_cases hdrained : ∃ i, o = .drained i
      · obtain ⟨i, rfl⟩ := hdrained
        exact drained_congr hpq hp hq
      · have hdata' : ∀ i bytes, o ≠ .data i bytes := fun i bytes h => hdata ⟨i, bytes, h⟩
        have hdrained' : ∀ i, o ≠ .drained i := fun i h => hdrained ⟨i, h⟩
        rw [← handle_erased hdata' hdrained' hcrashed hp,
          ← handle_erased hdata' hdrained' hcrashed' hq, hpq]

end

/-! ### Runs -/

/-- All steps of a run read only what has been written. -/
def StepsWritten (entered : Bool) (p : NodeProcess) : List Occurrence → Prop
  | [] => True
  | o :: os =>
    (p.net.crashed = false → o.Written entered p)
      ∧ StepsWritten (o.enteredAfter entered p) (p.occur o) os

/-- A run does the same to two processes. -/
theorem runIo_congr {os : List Occurrence} {entered : Bool} {p q : NodeProcess}
    (hpq : p.erased entered = q.erased entered) (hp : StepsWritten entered p os)
    (hq : StepsWritten entered q os) :
  ∃ entered', (p.runIo os).erased entered' = (q.runIo os).erased entered'
  := by
  induction os generalizing entered p q with
  | nil => exact ⟨entered, hpq⟩
  | cons o os ih =>
    obtain ⟨hwritten, hp⟩ := hp
    obtain ⟨hwritten', hq⟩ := hq
    have hstep := occur_congr hpq o hwritten hwritten'
    rw [← enteredAfter_congr hpq] at hstep hq
    exact ih hstep hp hq

/-! ### Memory -/

/-- What one call finds in memory that nobody has written: a record that `malloc` returns, a
byte of the stack, and the three bytes behind a string. -/
structure Scrap where
  node : NodeInfo
  hops : Int16
  byte : UInt8
  tail : UInt8 × UInt8 × UInt8

/-- What memory holds before a node is created: where `malloc` puts the node, with its finger
table and what is around its successor array, where it puts the connection table, and where
each call puts its own. -/
structure Memory where
  node : NodeSelf
  table : Fin maxOpenConnections → NetConnection DataCb EventCb CbArg
  scrap : ℕ → Scrap

/-- What the environment answers, with what memory holds. -/
def Outcome.over (o : Outcome) (s : Scrap) : Outcome :=
  { o with node := s.node, hops := s.hops, byte := s.byte, tail := s.tail }

namespace Memory

/-- The process of a node that has just been created in the memory, by a library that was
built with `NOFINGER` or without. -/
def create (m : Memory) (nofinger : Bool) (id : HashType) (listenPort : UInt16)
    (answers : ℕ → Outcome) : NodeProcess where
  node := nodeCreate { m.node with nofinger := nofinger } id listenPort
  net := { (NetServer.empty fun n => (answers n).over (m.scrap n) : NodeNet) with
    connections := m.table }
  succsLock := false
  log := []

/-- The memory of the connection table is zero. -/
def TableCleared (m : Memory) : Prop :=
  m.table = (NetServer.empty fun _ => Outcome.fine).connections

/-- The connection table is cleared, and all steps of the run of a node that is created in
the memory read only what has been written. -/
def ReadsWritten (m : Memory) (nofinger : Bool) (id : HashType) (listenPort : UInt16)
    (answers : ℕ → Outcome) (os : List Occurrence) : Prop :=
  m.TableCleared ∧ StepsWritten false (m.create nofinger id listenPort answers) os

end Memory

/-- What can be seen of a process: its connection table, with the peers of its connections
and the bytes in their buffers; the callbacks that were invoked, with what they look at; and
whether it has crashed. -/
structure Behaviour where
  connections : Fin maxOpenConnections → NetConnection DataCb EventCb CbArg
  log : List Event
  crashed : Bool

def Process.behaviour (p : NodeProcess) : Behaviour where
  connections := fun i => (p.net.connections i).erased CbArg.erased
  log := p.log.map Event.shown
  crashed := p.net.crashed

theorem behaviour_congr {entered : Bool} {p q : NodeProcess}
    (hpq : p.erased entered = q.erased entered) :
  p.behaviour = q.behaviour
  := by
  have hnet : NodeNet.erased p.net = NodeNet.erased q.net := congrArg Process.net hpq
  have hlog : p.log.map Event.shown = q.log.map Event.shown := congrArg Process.log hpq
  rw [Process.behaviour, Process.behaviour, hlog, crashed_congr hpq]
  exact congrArg (fun net : NodeNet => Behaviour.mk net.connections _ _) hnet

/-- Nodes that have just been created are the same when they are erased. -/
theorem create_erased {m m' : Memory} (h : m.TableCleared) (h' : m'.TableCleared)
    (nofinger : Bool) (id : HashType) (listenPort : UInt16) (answers : ℕ → Outcome) :
  (m.create nofinger id listenPort answers).erased false
    = (m'.create nofinger id listenPort answers).erased false
  := by
  rw [Memory.TableCleared] at h h'
  simp [Memory.create, Process.erased, NodeSelf.erased, nodeCreate, h, h', NetServer.erased,
    NetServer.empty, Outcome.over, Outcome.erased, FingerWritten, HandlerWritten]

/-- Two runs of a node that differ in what memory held before it was created behave the same
when they read only what has been written. -/
theorem behaviour_of_readsWritten (nofinger : Bool) (id : HashType) (listenPort : UInt16)
    (answers : ℕ → Outcome) {m m' : Memory} {os : List Occurrence}
    (h : m.ReadsWritten nofinger id listenPort answers os)
    (h' : m'.ReadsWritten nofinger id listenPort answers os) :
  ((m.create nofinger id listenPort answers).runIo os).behaviour
    = ((m'.create nofinger id listenPort answers).runIo os).behaviour
  := by
  obtain ⟨entered, hruns⟩ :=
    runIo_congr (create_erased h.1 h'.1 nofinger id listenPort answers) h.2 h'.2
  exact behaviour_congr hruns

/-! ### Cleared memory and other memory -/

/-- Memory that is zero. -/
def zeroMemory : Memory where
  node := NodeSelf.blank
  table := (NetServer.empty fun _ => Outcome.fine).connections
  scrap := fun _ => { node := nullNode, hops := 0, byte := 0, tail := (0, 0, 0) }

/-- Memory that has been used before, other than that of the connection table. -/
def usedMemory : Memory where
  node := { NodeSelf.blank with
    hasPred := true
    fingerTable := fun _ => ⟨3, 4, 5⟩
    msgCb := 17
    msgCbArg := 18
    outside := fun _ => ⟨6, 7, 8⟩ }
  table := zeroMemory.table
  scrap := fun _ => { node := ⟨9, 10, 11⟩, hops := 12, byte := 13, tail := (14, 15, 16) }

/-- A node creates a network, looks up an identifier, and is sent a request. -/
def servedOnce (r : Request) : List Occurrence :=
  [.networkCreate 0, .findSuccessor 5 0, .accept 7, .data 0 r.wire]

/-- A liveness probe is answered with what memory holds. -/
theorem aliveReply_differs :
  ((zeroMemory.create false 1 2 fun _ => Outcome.fine).runIo (servedOnce .alive)).behaviour
    ≠ ((usedMemory.create false 1 2 fun _ => Outcome.fine).runIo (servedOnce .alive)).behaviour
  := by
  intro h
  have houtput := congrArg (fun s => (s.connections 0).bev.map Bufferevent.output) h
  revert houtput
  decide +kernel

/-- The request for the predecessor reads only what has been written. -/
theorem readsWritten_servedOnce {m : Memory} (hm : m = zeroMemory ∨ m = usedMemory) :
  m.ReadsWritten false 1 2 (fun _ => Outcome.fine) (servedOnce .predecessor)
  := by
  have hparse : nodeParseMessageHeader 0 (Request.predecessor.wire) = ((msgTPredReq, 0), []) := by
    decide +kernel
  generalize hp : m.create false 1 2 (fun _ => Outcome.fine) = p
  have hlookup : LookupWritten (p.occur (.networkCreate 0)) 5 (.app 0) := by
    rcases hm with rfl | rfl <;> subst hp
    · exact ⟨⟨0, by decide +kernel⟩, Or.inl (by decide +kernel), fun _ => rfl⟩
    · exact ⟨⟨0, by decide +kernel⟩, Or.inl (by decide +kernel), fun _ => rfl⟩
  generalize hq : ((p.occur (.networkCreate 0)).occur (.findSuccessor 5 0)).occur (.accept 7) = q
  have hslot : (q.net.connections 0).bev.map Bufferevent.input = some []
      ∧ (q.net.connections 0).readCb = some .incomingReadCb
      ∧ (q.net.connections 0).upperCbArg = some .self := by
    rcases hm with rfl | rfl <;> subst hp hq
    · decide +kernel
    · decide +kernel
  obtain ⟨hinput, hread, harg⟩ := hslot
  have hdata : (Occurrence.data 0 Request.predecessor.wire).Written true q := by
    intro b cb hb henabled hbytes hlow hcb
    rw [hread] at hcb
    obtain rfl := Option.some.inj hcb
    have hempty : b.input = [] := by simpa [hb] using hinput
    rw [harg, hempty, List.nil_append]
    refine ⟨hbytes, ?_⟩
    dsimp only
    rw [hparse]
    exact Or.inr rfl
  have hcrashed : p.net.crashed = false := by
    rcases hm with rfl | rfl <;> subst hp <;> rfl
  have hentered : Occurrence.enteredAfter false p (.networkCreate 0) = true := by
    simp [Occurrence.enteredAfter, hcrashed]
  refine ⟨?_, ?_⟩
  · rcases hm with rfl | rfl
    · rfl
    · rfl
  · rw [hp, servedOnce]
    refine ⟨fun _ => trivial, fun _ => hlookup, fun _ => trivial, fun _ => ?_, trivial⟩
    rw [hentered, hq]
    exact hdata

theorem behaviour_of_readsWritten_servedOnce :
  ((zeroMemory.create false 1 2 fun _ => Outcome.fine).runIo (servedOnce .predecessor)).behaviour
    = ((usedMemory.create false 1 2 fun _ => Outcome.fine).runIo
        (servedOnce .predecessor)).behaviour
  := behaviour_of_readsWritten false 1 2 (fun _ => Outcome.fine)
    (readsWritten_servedOnce (Or.inl rfl)) (readsWritten_servedOnce (Or.inr rfl))
