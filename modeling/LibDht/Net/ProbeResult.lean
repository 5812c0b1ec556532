import LibDht.Net.Exhaustion
import LibDht.Net.Heirs
import LibDht.Net.Replies

/-!
# The result of a liveness probe

A probe is to report one result. It ends when it cannot be sent, when a line has come, or
when its connection ends or fails, whatever else happens to the process meanwhile. The
reader of the reply reports a line that comes at once, and uses a null pointer otherwise;
the event callback reports an error and a timeout, and nothing when the peer just closes the
connection; and a probe that is not sent has no callback that could report anything.

When a probe has ended its argument is freed, and its callbacks stay in the slot. They are called
again with what was freed if the application makes a connection there that inherits both.
-/

/-- The event ends a connection: `EOF`, an error or a timeout. -/
def EndsConnection (what : UInt16) : Prop :=
  what &&& (bevEventEof ||| bevEventError ||| bevEventTimeout) ≠ 0

/-- The event is an error or a timeout. -/
def FailsConnection (what : UInt16) : Prop :=
  what &&& (bevEventError ||| bevEventTimeout) ≠ 0

instance (what : UInt16) : Decidable (EndsConnection what) :=
  inferInstanceAs (Decidable (_ ≠ _))

instance (what : UInt16) : Decidable (FailsConnection what) :=
  inferInstanceAs (Decidable (_ ≠ _))

theorem FailsConnection.ends {what : UInt16} (h : FailsConnection what) :
  EndsConnection what
  := by
  intro hnone
  apply h
  have hmask : bevEventError ||| bevEventTimeout
      = (bevEventEof ||| bevEventError ||| bevEventTimeout)
        &&& (bevEventError ||| bevEventTimeout) := by decide
  rw [hmask, ← UInt16.and_assoc, hnone, UInt16.zero_and]

/-! ### What is to be reported, and what is -/

/-- What a probe is to report whose connection is in the slot `i`, and the bytes `acc` have
come on it: success when there is a complete line and it starts with `Y`, failure when it
does not or when the connection ends before that. -/
def probeVerdict (i : Fin maxOpenConnections) : List UInt8 → List Occurrence → Option Bool
  | _, [] => none
  | acc, o :: os =>
    match o.arrivalOn i with
    | some (.data bytes) =>
      match readln (acc ++ bytes) with
      | some line => some (line.headD 0 == replyYes)
      | none => probeVerdict i (acc ++ bytes) os
    | some (.event what) => if EndsConnection what then some false else probeVerdict i acc os
    | none => probeVerdict i acc os

/-- The connection that is made for a probe: its slot and its serial. -/
def probeConnection (p : NodeProcess) (n : NodeInfo) (cb : CheckCb) :
    Option (Fin maxOpenConnections × ℕ) :=
  (netEmptyConnectionSlot p.net).bind fun i =>
    if NodeNet.serialIn (nodeCheckNode p n cb).net i = some p.net.nextSerial then
      some (i, p.net.nextSerial)
    else none

/-- A probe ends in what happens to the process, and `success` is to be reported. -/
inductive ProbeEnds (p : NodeProcess) (os : List Occurrence) : Bool → Prop where
  | unsent (h : ¬ p.net.CanSend) : ProbeEnds p os false
  | ended {i : Fin maxOpenConnections} {success : Bool} (h : p.net.CanSend)
      (hi : netEmptyConnectionSlot p.net = some i)
      (hverdict : probeVerdict i [] os = some success) : ProbeEnds p os success

/-- The results that are reported when something happens on the connection with the serial `s`
in the slot `i`. -/
def resultsOn (i : Fin maxOpenConnections) (s : ℕ) (p : NodeProcess) (os : List Occurrence) :
    List (CheckCb × Bool) :=
  probesAnswered (loggedOn i s p os)

/-- The results that are reported of a probe that `p` starts: at once, or by what happens on
its connection from `q` on. -/
def probeResults (p : NodeProcess) (n : NodeInfo) (cb : CheckCb) (q : NodeProcess)
    (os : List Occurrence) : List (CheckCb × Bool) :=
  probesAnswered (loggedSince p (nodeCheckNode p n cb))
    ++ match probeConnection p n cb with
      | some (i, s) => resultsOn i s q os
      | none => []

/-- A probe is started in a run, and the operation that starts it is completed then: `p` and
`q` are the process before the probe and after the operation. The application does nothing
to the connection of the probe, whose number it is not told. -/
structure ProbeStarts (p : NodeProcess) (n : NodeInfo) (cb : CheckCb) (q : NodeProcess)
    (os : List Occurrence) : Prop where
  before : ∃ s outcome history,
    Calls (fun _ => True) ((Process.boot s outcome).runIo history).net p.net
  after : Calls (fun _ => True) (nodeCheckNode p n cb).net q.net
  app : ∀ i s, probeConnection p n cb = some (i, s) → LeftAlone i s q os

/-- The first thing that matters on the connection in the slot `i` is a segment with the end of
a line, or an error or a timeout, and the process has not crashed when it comes. -/
def LineOrFailure (i : Fin maxOpenConnections) : NodeProcess → List Occurrence → Prop
  | _, [] => False
  | p, o :: os =>
    match o.arrivalOn i with
    | some (.data bytes) =>
      if bytes = [] then LineOrFailure i (p.occur o) os
      else p.net.crashed = false ∧ lineFeed ∈ bytes
    | some (.event what) =>
      if EndsConnection what then p.net.crashed = false ∧ FailsConnection what
      else LineOrFailure i (p.occur o) os
    | none => LineOrFailure i (p.occur o) os

/-- The callback that is called is one of a probe. -/
def ConnectionEvent.CallsProbe (c : NodeSlot) : ConnectionEvent → Prop
  | .data _ => c.readCb = some .nodeCheckNodeReply
  | .event _ => c.evtCb = some .nodeCheckNodeEvent

/-- The callback that is called is one of a probe, and its argument is freed. -/
def ConnectionEvent.Stale (e : ConnectionEvent) (c : NodeSlot) : Prop :=
  e.CallsProbe c ∧ c.upperCbArg = some .freed

/-- No callback of a probe is called on the slot `i` with an argument that is freed. -/
def NeverFreed (i : Fin maxOpenConnections) (p : NodeProcess) (os : List Occurrence) : Prop :=
  ∀ before o after e, os = before ++ o :: after → o.arrivalOn i = some e →
    e.calledWith (p.runIo before) i = some .freed →
      ¬ e.CallsProbe ((p.runIo before).net.connections i)

/-- A probe reports its result once, and its callbacks are not called any more when its argument
is freed. -/
structure ReportsOnce (p : NodeProcess) (n : NodeInfo) (cb : CheckCb) (q : NodeProcess)
    (os : List Occurrence) (success : Bool) : Prop where
  results : probeResults p n cb q os = [(cb, success)]
  freed : ∀ i s, probeConnection p n cb = some (i, s) → NeverFreed i q os

/-- The application makes no connection in the slot `i` that inherits a callback of a probe with
an argument that is freed, and on which that callback is due. -/
def NoneInherits (i : Fin maxOpenConnections) (p : NodeProcess) (os : List Occurrence) : Prop :=
  ∀ before o after e, os = before ++ o :: after → o.arrivalOn i = some e →
    e.Due (p.runIo before) i → ¬ Inherits e.Stale [e.field, .cbArg] p before i

section

variable {p q : NodeProcess} {i : Fin maxOpenConnections} {s : ℕ} {cb : CheckCb}
  {o : Occurrence} {os : List Occurrence} {net net' : NodeNet}

/-! ### Results -/

/-- Nothing is reported when nothing happens on the slot, or what does changes nothing. -/
theorem resultsOn_still (h : o.slot = some i → p.occur o = p) (os : List Occurrence) :
  resultsOn i s p (o :: os) = resultsOn i s (p.occur o) os
  := congrArg probesAnswered (loggedOn_still h os)

theorem resultsOn_cons (hslot : o.slot = some i) (hserial : NodeNet.serialIn p.net i = some s)
    {es : List Event} (hlog : (p.occur o).log = p.log ++ es) (os : List Occurrence) :
  resultsOn i s p (o :: os) = probesAnswered es ++ resultsOn i s (p.occur o) os
  := by
  rw [resultsOn, loggedOn_cons hslot hserial hlog, probesAnswered_append]
  rfl

theorem resultsOn_crashed (h : p.net.crashed = true) (os : List Occurrence) :
  resultsOn i s p os = []
  := congrArg probesAnswered (loggedOn_crashed h os)

/-- Nothing is reported of a connection that is not in its slot any more. -/
theorem resultsOn_gone (hlt : s < p.net.nextSerial) (h : NodeNet.serialIn p.net i ≠ some s)
    (os : List Occurrence) :
  resultsOn i s p os = []
  := congrArg probesAnswered (loggedOn_gone hlt h os)

theorem not_lineOrFailure_crashed (h : p.net.crashed = true) (os : List Occurrence) :
  ¬ LineOrFailure i p os
  := by
  induction os with
  | nil => exact not_false
  | cons o os ih =>
    rw [LineOrFailure, occur_crashed h, h]
    split
    · split_ifs
      · exact ih
      · simp
    · split_ifs
      · simp
      · exact ih
    · exact ih

/-! ### A probe that was sent -/

/-- The slot `i` holds a connection with the serial `s`, which is waiting for the answer to a
probe, and nothing has arrived on it. -/
structure Probing (net : NodeNet) (i : Fin maxOpenConnections) (s : ℕ) (cb : CheckCb) : Prop where
  bev : ∃ b, (net.connections i).bev = some b ∧ b.serial = s ∧ b.enabled = true ∧ b.input = []
    ∧ b.low = 0
  readCb : (net.connections i).readCb = some .nodeCheckNodeReply
  writeCb : ∀ cb, (net.connections i).writeCb = some cb → ∃ k, cb = .app k
  evtCb : (net.connections i).evtCb = some .nodeCheckNodeEvent
  arg : (net.connections i).upperCbArg = some (.check cb)

/-- A result is reported, and the connection is closed. -/
structure Reports (p q : NodeProcess) (i : Fin maxOpenConnections) (cb : CheckCb)
    (success : Bool) : Prop where
  log : ∃ es, q.log = p.log ++ es ∧ probesAnswered es = [(cb, success)]
  closed : NodeNet.serialIn q.net i = none

/-- Nothing is reported, and nothing will be. -/
structure FallsSilent (p q : NodeProcess) (i : Fin maxOpenConnections) : Prop where
  log : q.log = p.log
  still : q.net.crashed = true ∨ NodeNet.serialIn q.net i = none

theorem Probing.serialIn (h : Probing net i s cb) :
  NodeNet.serialIn net i = some s
  := by
  obtain ⟨b, hb, hserial, -⟩ := h.bev
  rw [NodeNet.serialIn, hb, Option.map_some, hserial]

theorem Probing.taken (h : Probing net i s cb) :
  (net.connections i).bev ≠ none
  := by
  obtain ⟨b, hb, -⟩ := h.bev
  rw [hb]
  exact Option.some_ne_none b

/-- A probe goes on waiting when its connection is left alone. -/
theorem Probing.congr (h : Probing net i s cb)
    (hkept : NodeSlot.kept (net'.connections i) = NodeSlot.kept (net.connections i)) :
  Probing net' i s cb
  := by
  obtain ⟨b, hb, hserial, henabled, hinput, hlow⟩ := h.bev
  simp only [NodeSlot.kept, NetConnection.mk.injEq, hb, Option.map_some] at hkept
  obtain ⟨hbev, -, hread, hwrite, hevt, harg, -⟩ := hkept
  obtain ⟨b', hb', heq⟩ := Option.map_eq_some_iff.mp hbev
  rw [Bufferevent.mk.injEq] at heq
  obtain ⟨hserial', hinput', -, hlow', henabled', -⟩ := heq
  constructor
  · exact ⟨b', hb', hserial'.trans hserial, henabled'.trans henabled, hinput'.trans hinput,
      hlow'.trans hlow⟩
  · rw [hread]
    exact h.readCb
  · rw [hwrite]
    exact h.writeCb
  · rw [hevt]
    exact h.evtCb
  · rw [harg]
    exact h.arg

theorem Probing.drained (h : Probing p.net i s cb) :
  p.occur (.drained i) = p
  := occur_drained h.writeCb

/-- What is no arrival on its connection does not concern a probe. -/
theorem Probing.still (h : Probing p.net i s cb) (harrival : o.arrivalOn i = none)
    (hslot : o.slot = some i) :
  p.occur o = p
  := by
  obtain rfl := eq_drained_of_slot hslot harrival
  exact h.drained

theorem Probing.occur (h : Probing p.net i s cb) (harrival : o.arrivalOn i = none)
    (hnamed : o.named ≠ some i) :
  Probing (p.occur o).net i s cb
  := by
  by_cases hslot : o.slot = some i
  · rw [h.still harrival hslot]
    exact h
  · exact h.congr (occur_kept p hslot hnamed h.taken)

theorem reports_close_free {q : NodeProcess} (hlog : q.log = p.log) (cb : CheckCb)
    (success : Bool) :
  Reports p (((nodeCheckResult q cb success).close i.val).free i.val (.check cb)) i cb success
  := by
  obtain ⟨es, hes, hanswered⟩ := nodeCheckResult_log q cb success
  constructor
  · refine ⟨es, ?_, hanswered⟩
    rw [Process.free_log, Process.close_log, hes, hlog]
  · exact serialIn_close_free _ i _

/-- What data does that comes on the connection of a probe. -/
theorem Probing.data (h : Probing p.net i s cb) (hrun : p.net.crashed = false)
    {bytes : List UInt8} (hbytes : bytes ≠ []) :
  match readln bytes with
  | some line => Reports p (p.occur (.data i bytes)) i cb (line.headD 0 == replyYes)
  | none => FallsSilent p (p.occur (.data i bytes)) i
  := by
  obtain ⟨b, hb, hserial, henabled, hinput, hlow⟩ := h.bev
  have hconn : Connected p i s b := ⟨hrun, hb, hserial, henabled⟩
  have hwait : b.input.length < max b.low 1 := by simp [hinput, hlow]
  have hpos : max b.low 1 ≤ (b.input ++ bytes).length := by
    rw [hinput, hlow, List.nil_append]
    exact List.length_pos_of_ne_nil hbytes
  rw [Process.occur_of_running hrun, Occurrence.handle, arrive_of_connected hconn hwait,
    if_pos hpos, hinput, List.nil_append]
  have hready := readReady_setInput h.readCb bytes
  rw [h.arg, runDataCb] at hready
  rw [hready, nodeCheckNodeReply, withBuffer_of_bev (hconn.setInput bytes).bev]
  cases hline : readln bytes with
  | none => exact ⟨rfl, Or.inl rfl⟩
  | some line => exact reports_close_free (Process.setInput_log p i bytes) cb _

/-- What an event does on the connection of a probe. -/
theorem Probing.event (h : Probing p.net i s cb) (hrun : p.net.crashed = false)
    (what : UInt16) :
  if FailsConnection what then Reports p (p.occur (.event i what)) i cb false
  else if EndsConnection what then FallsSilent p (p.occur (.event i what)) i
  else p.occur (.event i what) = p
  := by
  obtain ⟨b, hb, -, henabled, -⟩ := h.bev
  have hoccur : p.occur (.event i what)
      = nodeCheckNodeEvent p i.val what (some (.check cb)) := by
    rw [Process.occur_of_running hrun, Occurrence.handle, NodeNet.isEnabled_of_bev hb, henabled,
      if_pos rfl, netConnectionEventCb_coe, h.evtCb, h.arg]
    rfl
  have hevent : nodeCheckNodeEvent p i.val what (some (.check cb))
      = if EndsConnection what then
          ((if FailsConnection what then nodeCheckResult p cb false else p).close i.val).free i.val
            (.check cb)
        else p := rfl
  rw [hoccur, hevent]
  by_cases hfails : FailsConnection what
  · rw [if_pos hfails, if_pos hfails.ends, if_pos hfails]
    exact reports_close_free rfl cb false
  · rw [if_neg hfails, if_neg hfails]
    by_cases hends : EndsConnection what
    · rw [if_pos hends, if_pos hends]
      refine ⟨?_, Or.inr (serialIn_close_free p i _)⟩
      rw [Process.free_log, Process.close_log]
    · rw [if_neg hends, if_neg hends]

/-- The result that was reported is the only one. -/
theorem Reports.results {success : Bool} (h : Reports p (p.occur o) i cb success)
    (hserial : NodeNet.serialIn p.net i = some s) (hlt : s < p.net.nextSerial)
    (hslot : o.slot = some i) (os : List Occurrence) :
  resultsOn i s p (o :: os) = [(cb, success)]
  := by
  obtain ⟨es, hes, hanswered⟩ := h.log
  have hlt' := lt_of_lt_of_le hlt (occur_happens p o).net.nextSerial
  rw [resultsOn_cons hslot hserial hes, hanswered, resultsOn_gone hlt' (by simp [h.closed]),
    List.append_nil]

theorem FallsSilent.results (h : FallsSilent p (p.occur o) i)
    (hserial : NodeNet.serialIn p.net i = some s) (hlt : s < p.net.nextSerial)
    (hslot : o.slot = some i) (os : List Occurrence) :
  resultsOn i s p (o :: os) = []
  := by
  have hlog : (p.occur o).log = p.log ++ [] := by rw [List.append_nil, h.log]
  have hlt' := lt_of_lt_of_le hlt (occur_happens p o).net.nextSerial
  have hrest : resultsOn i s (p.occur o) os = [] := by
    rcases h.still with hcrashed | hclosed
    · exact resultsOn_crashed hcrashed os
    · exact resultsOn_gone hlt' (by simp [hclosed]) os
  rw [resultsOn_cons hslot hserial hlog, hrest]
  rfl

/-- The result is reported if a line or a failure comes first, and nothing is otherwise. -/
def ReportedIff (i : Fin maxOpenConnections) (s : ℕ) (p : NodeProcess) (os : List Occurrence)
    (cb : CheckCb) (success : Bool) : Prop :=
  (LineOrFailure i p os → resultsOn i s p os = [(cb, success)])
    ∧ (¬ LineOrFailure i p os → resultsOn i s p os = [])

/-- What does not concern the probe leaves open what is reported. -/
theorem ReportedIff.cons {success : Bool} (h : ReportedIff i s (p.occur o) os cb success)
    (hstill : o.slot = some i → p.occur o = p)
    (hfirst : LineOrFailure i p (o :: os) ↔ LineOrFailure i (p.occur o) os) :
  ReportedIff i s p (o :: os) cb success
  := by
  rw [ReportedIff, resultsOn_still hstill, hfirst]
  exact h

theorem lineOrFailure_elsewhere (harrival : o.arrivalOn i = none) :
  LineOrFailure i p (o :: os) ↔ LineOrFailure i (p.occur o) os
  := by
  rw [LineOrFailure, harrival]

theorem lineOrFailure_data (hrun : p.net.crashed = false) {bytes : List UInt8}
    (hbytes : bytes ≠ []) :
  LineOrFailure i p (.data i bytes :: os) ↔ lineFeed ∈ bytes
  := by
  rw [LineOrFailure, arrivalOn_data]
  simp [hbytes, hrun]

theorem lineOrFailure_event (hrun : p.net.crashed = false) {what : UInt16}
    (hends : EndsConnection what) :
  LineOrFailure i p (.event i what :: os) ↔ FailsConnection what
  := by
  rw [LineOrFailure, arrivalOn_event]
  simp [hends, hrun]

/-- The first segment of a reply decides. -/
theorem Probing.reported_data (h : Probing p.net i s cb) (hrun : p.net.crashed = false)
    (hlt : s < p.net.nextSerial) {bytes : List UInt8} (hbytes : bytes ≠ []) {success : Bool}
    (hverdict : probeVerdict i [] (.data i bytes :: os) = some success) :
  ReportedIff i s p (.data i bytes :: os) cb success
  := by
  have hdata := h.data hrun hbytes
  rw [ReportedIff, lineOrFailure_data hrun hbytes]
  by_cases hline : lineFeed ∈ bytes
  · have hread : readln bytes = some (bytes.takeWhile (· ≠ lineFeed)) := if_pos hline
    rw [hread] at hdata
    rw [probeVerdict, arrivalOn_data] at hverdict
    simp only [List.nil_append, hread, Option.some.injEq] at hverdict
    subst hverdict
    exact ⟨fun _ => hdata.results h.serialIn hlt rfl os, fun hno => absurd hline hno⟩
  · have hread : readln bytes = none := if_neg hline
    rw [hread] at hdata
    exact ⟨fun hyes => absurd hyes hline, fun _ => hdata.results h.serialIn hlt rfl os⟩

/-- The end of the connection decides. -/
theorem Probing.reported_event (h : Probing p.net i s cb) (hrun : p.net.crashed = false)
    (hlt : s < p.net.nextSerial) {what : UInt16} (hends : EndsConnection what) {success : Bool}
    (hverdict : probeVerdict i [] (.event i what :: os) = some success) :
  ReportedIff i s p (.event i what :: os) cb success
  := by
  have hevent := h.event hrun what
  rw [probeVerdict, arrivalOn_event] at hverdict
  simp only [hends, if_true, Option.some.injEq] at hverdict hevent
  subst hverdict
  rw [ReportedIff, lineOrFailure_event hrun hends]
  by_cases hfails : FailsConnection what
  · rw [if_pos hfails] at hevent
    exact ⟨fun _ => hevent.results h.serialIn hlt rfl os, fun hno => absurd hfails hno⟩
  · rw [if_neg hfails] at hevent
    exact ⟨fun hyes => absurd hyes hfails, fun _ => hevent.results h.serialIn hlt rfl os⟩

/-- What is reported of a probe that was sent, when it ends: the verdict if a line or a failure
comes first, and nothing otherwise. -/
theorem Probing.run (h : Probing p.net i s cb) (hlt : s < p.net.nextSerial)
    (happ : LeftAlone i s p os) {success : Bool} (hverdict : probeVerdict i [] os = some success) :
  ReportedIff i s p os cb success
  := by
  induction os generalizing p with
  | nil => cases hverdict
  | cons o os ih =>
    by_cases hcrashed : p.net.crashed = true
    · exact ⟨fun hfirst => absurd hfirst (not_lineOrFailure_crashed hcrashed _),
        fun _ => resultsOn_crashed hcrashed _⟩
    have hrun : p.net.crashed = false := Bool.eq_false_iff.mpr hcrashed
    have hlt' := lt_of_lt_of_le hlt (occur_happens p o).net.nextSerial
    obtain ⟨hnamed, happ⟩ := happ
    cases harrival : o.arrivalOn i with
    | none =>
      rw [probeVerdict, harrival] at hverdict
      have hrest := ih (h.occur harrival (hnamed h.serialIn)) hlt' happ hverdict
      exact hrest.cons (h.still harrival) (lineOrFailure_elsewhere harrival)
    | some e =>
      obtain rfl := Occurrence.arrivalOn_eq_some harrival
      cases e with
      | data bytes =>
        by_cases hbytes : bytes = []
        · subst hbytes
          have hsame : p.occur (ConnectionEvent.occurrence i (.data [])) = p := by
            rw [Process.occur_of_running hrun]
            exact arrive_nil p i
          rw [probeVerdict, harrival] at hverdict
          have hrest := ih (hsame.symm ▸ h) hlt' happ hverdict
          refine hrest.cons (fun _ => hsame) ?_
          rw [LineOrFailure, harrival]
          simp only [if_true]
        · exact h.reported_data hrun hlt hbytes hverdict
      | event what =>
        by_cases hends : EndsConnection what
        · exact h.reported_event hrun hlt hends hverdict
        · have hfails : ¬ FailsConnection what := fun hfails => hends hfails.ends
          have hevent := h.event hrun what
          rw [probeVerdict, harrival] at hverdict
          simp only [hends, hfails, if_false] at hverdict hevent
          have hsame : p.occur (ConnectionEvent.occurrence i (.event what)) = p := hevent
          have hrest := ih (hsame.symm ▸ h) hlt' happ hverdict
          refine hrest.cons (fun _ => hsame) ?_
          rw [LineOrFailure, harrival]
          simp only [hends, if_false]

/-! ### Arguments that are freed -/

theorem ConnectionEvent.calledWith_freed_iff {e : ConnectionEvent} :
  e.calledWith p i = some .freed ∧ e.CallsProbe (p.net.connections i)
    ↔ e.Due p i ∧ e.Stale (p.net.connections i)
  := by
  cases e with
  | data bytes =>
    rw [calledWith, Due, Stale, CallsProbe, netConnectionReadCb_coe]
    cases hb : (p.net.connections i).bev with
    | none => simp
    | some b =>
      cases hread : (p.net.connections i).readCb <;> simp [and_assoc]
      intro _ _ _ _
      exact and_comm
  | event what =>
    rw [calledWith, Due, Stale, CallsProbe, netConnectionEventCb_coe]
    cases hevt : (p.net.connections i).evtCb <;> simp [and_assoc]
    intro _ _
    exact and_comm

/-- A callback that is called with an argument that is freed crashes the process, or does
nothing. -/
theorem runDataCb_freed (p : NodeProcess) (cb : Option DataCb) (connection : ℤ) :
  let call := cb.map fun cb => (cb, connection, some CbArg.freed)
  runDataCb p call = p.crash ∨ runDataCb p call = p
  := by
  cases cb with
  | none => exact Or.inr rfl
  | some cb =>
    cases cb with
    | app k => exact Or.inr rfl
    | _ => exact Or.inl rfl

theorem runEventCb_freed (p : NodeProcess) (what : UInt16) (cb : Option EventCb)
    (connection : ℤ) :
  let call := cb.map fun cb => (cb, connection, some CbArg.freed)
  runEventCb p what call = p.crash ∨ runEventCb p what call = p
  := by
  cases cb with
  | none => exact Or.inr rfl
  | some cb =>
    cases cb with
    | app k => exact Or.inr rfl
    | nodeRemoteFindEvent => exact Or.inr rfl
    | _ => exact Or.inl rfl

/-- What happens on a connection whose argument is freed leaves its fields. -/
theorem occur_same_of_freed (hwrites : AppWrites p.net) (hslot : o.slot = some i)
    (hfreed : (p.net.connections i).upperCbArg = some .freed)
    (hrun : (p.occur o).net.crashed = false) (f : SlotField) :
  f.Same (p.net.connections i) ((p.occur o).net.connections i)
  := by
  cases o with
  | data j bytes =>
    obtain rfl := Option.some.inj hslot
    rcases occur_data_cases p j bytes with heq | ⟨input, heq | heq⟩
    · rw [heq]
      exact SlotField.Same.refl f _
    · rw [heq]
      exact same_setInput p j input f
    · rw [hfreed] at heq
      rcases runDataCb_freed (p.setInput j input) (p.net.connections j).readCb j.val with h | h
      · rw [heq, h] at hrun
        cases hrun
      · rw [heq, h]
        exact same_setInput p j input f
  | drained j =>
    obtain rfl := Option.some.inj hslot
    rw [occur_drained (hwrites j)]
    exact SlotField.Same.refl f _
  | event j what =>
    obtain rfl := Option.some.inj hslot
    rcases occur_event_cases p j what with heq | heq
    · rw [heq]
      exact SlotField.Same.refl f _
    · rw [netConnectionEventCb_coe, hfreed] at heq
      rcases runEventCb_freed p what (p.net.connections j).evtCb j.val with h | h
      · rw [heq, h] at hrun
        cases hrun
      · rw [heq, h]
        exact SlotField.Same.refl f _
  | _ => cases hslot

/-- A callback of a probe whose argument is freed is on no connection that the node or another
one makes. -/
theorem ConnectionEvent.stale_back {e : ConnectionEvent} {who : Origin} {n : ℕ} {c c' : NodeSlot}
    (hchange : SlotChange who n c c') (hwho : who = .foreign → s < n) (hdeferred : c.Deferred)
    (hs : c'.bev.map Bufferevent.serial = some s) (hstale : e.Stale c') :
  e.Stale c ∧ c.bev.map Bufferevent.serial = some s
  := by
  obtain ⟨hcalls, hfreed⟩ := hstale
  cases hchange with
  | modifyBev hf =>
    refine ⟨⟨?_, hfreed⟩, ?_⟩
    · cases e <;> exact hcalls
    · obtain ⟨b', hb', rfl⟩ := Option.map_eq_some_iff.mp hs
      obtain ⟨b, hb, rfl⟩ := Option.map_eq_some_iff.mp hb'
      rw [hb, Option.map_some, hf]
  | close => cases hs
  | request i hb msg hrequest _ =>
    cases hrequest with
    | find data => cases hfreed
    | notify => cases hfreed
    | probe cb => cases hfreed
  | accept i hb _ => cases hfreed
  | foreign i hb msg readCb eventCb cbArg hforeign =>
    have hlt := hwho hforeign
    have hs := Option.some.inj hs
    omega
  | setReadCb hcb =>
    cases e with
    | data bytes => exact absurd trivial (hcb _ hcalls)
    | event what => exact ⟨⟨hcalls, hfreed⟩, hs⟩
  | setWriteCb cb => exact ⟨⟨by cases e <;> exact hcalls, hfreed⟩, hs⟩
  | setEventCb cb =>
    cases e with
    | data bytes => exact ⟨⟨hcalls, hfreed⟩, hs⟩
    | event what =>
      obtain ⟨k, -, hk⟩ := Option.map_eq_some_iff.mp hcalls
      cases hk
  | setCbArg cbArg =>
    obtain ⟨k, -, hk⟩ := Option.map_eq_some_iff.mp hfreed
    cases hk
  | defer type len => cases hfreed
  | @dangle arg harg =>
    rw [NodeNet.dangle_bev] at hs
    rcases harg with hnone | ⟨type, len, rfl⟩
    · rw [hnone] at hs
      cases hs
    · rw [NodeNet.dangle] at hcalls hfreed
      split_ifs at hcalls hfreed with hmsg
      · obtain ⟨hread, hevt⟩ := hdeferred type len hmsg
        cases e with
        | data bytes => exact absurd trivial (hread _ hcalls)
        | event what => exact absurd hcalls hevt
      · exact ⟨⟨hcalls, hfreed⟩, hs⟩

theorem ConnectionEvent.Stale.congr {e : ConnectionEvent} {c c' : NodeSlot} (h : e.Stale c)
    (hsame : ∀ f ∈ [e.field, .cbArg], SlotField.Same c c' f) :
  e.Stale c'
  := by
  have hfield : e.field.Same c c' := hsame _ (by simp)
  have harg : SlotField.cbArg.Same c c' := hsame _ (by simp)
  obtain ⟨hcalls, hfreed⟩ := h
  refine ⟨?_, Eq.trans harg hfreed⟩
  cases e with
  | data bytes => exact Eq.trans hfield hcalls
  | event what => exact Eq.trans hfield hcalls

/-- What the application sets is no callback of a probe, and not freed. -/
theorem not_stale_of_sets {e : ConnectionEvent} {f : SlotField} (hf : f ∈ [e.field, .cbArg])
    (hset : o.Sets i f) (hrun : p.net.crashed = false) :
  ¬ e.Stale ((p.occur o).net.connections i)
  := by
  rw [Process.occur_of_running hrun]
  rintro ⟨hcalls, hfreed⟩
  cases o with
  | setReadCb connection cb =>
    obtain ⟨rfl, hi⟩ := hset
    cases e with
    | data bytes =>
      simp [Occurrence.handle, netConnectionSetReadCb, netConnectionSet, hi, NetServer.modify,
        ConnectionEvent.CallsProbe] at hcalls
    | event what => simp [ConnectionEvent.field] at hf
  | setEventCb connection cb =>
    obtain ⟨rfl, hi⟩ := hset
    cases e with
    | data bytes => simp [ConnectionEvent.field] at hf
    | event what =>
      simp [Occurrence.handle, netConnectionSetEventCb, netConnectionSet, hi, NetServer.modify,
        ConnectionEvent.CallsProbe] at hcalls
  | setCbArg connection cbArg =>
    obtain ⟨rfl, hi⟩ := hset
    simp [Occurrence.handle, netConnectionSetCbArg, netConnectionSet, hi, NetServer.modify]
      at hfreed
  | setWriteCb connection cb =>
    obtain ⟨rfl, hi⟩ := hset
    cases e <;> simp [ConnectionEvent.field] at hf
  | _ => exact absurd hset not_false

/-- A callback of a probe with an argument that is freed is inherited. -/
theorem ConnectionEvent.stale_inheritable (e : ConnectionEvent) :
  Inheritable e.Stale [e.field, .cbArg]
  := by
  constructor
  · intro p o i horigin hnone hmade
    obtain ⟨b, msg, readCb, eventCb, cbArg, heq, hread, hevt, harg⟩ :=
      occur_makes horigin hnone hmade
    rw [heq]
    cases e with
    | data bytes =>
      cases readCb <;> cases cbArg <;> simp [Stale, CallsProbe, field, taken, hread, harg]
    | event what =>
      cases eventCb <;> cases cbArg <;> simp [Stale, CallsProbe, field, taken, hevt, harg]
  · intro p o i s hp hrun hs hs'
    have hlt := hp.numbered.lt hs
    constructor
    · intro hstale
      constructor
      · refine (occur_back hp ?_ hs' hstale).1
        intro n c c' hchange hn hdeferred hserial
        exact stale_back hchange (fun _ => lt_of_lt_of_le hlt hn) hdeferred hserial
      · intro f hf hset
        exact not_stale_of_sets hf hset (running_of_occur hrun) hstale
    · rintro ⟨hstale, hset⟩
      apply hstale.congr
      intro f hf
      by_cases hslot : o.slot = some i
      · exact occur_same_of_freed hp.writes hslot hstale.2 hrun f
      · by_cases hnamed : o.named = some i
        · exact occur_same_of_named hnamed (hset f hf) (serialIn_ne_none hs')
        · exact occur_same_of_elsewhere hslot hnamed (serialIn_ne_none hs)

/-- Where a callback of a probe has an argument that is freed, the application has made the
connection. -/
theorem appMade_of_stale {e : ConnectionEvent} (hp : Steady p.net)
    (hfresh : (p.net.connections i).bev ≠ none → ¬ e.Stale (p.net.connections i))
    (hrun : (p.runIo os).net.crashed = false)
    (hs : NodeNet.serialIn (p.runIo os).net i = some s)
    (hstale : e.Stale ((p.runIo os).net.connections i)) :
  AppMade p os i
  := by
  induction os using List.reverseRecOn with
  | nil => exact absurd hstale (hfresh (serialIn_ne_none hs))
  | append_singleton os o ih =>
    have hbefore := hp.runIo os
    rw [runIo_snoc] at hrun hs hstale
    by_cases hold : NodeNet.serialIn (p.runIo os).net i = some s
    · have hback := occur_back hbefore (fun hchange hn hdeferred hserial =>
        e.stale_back hchange (fun _ => lt_of_lt_of_le (hbefore.numbered.lt hold) hn) hdeferred
          hserial) hs hstale
      apply (ih (running_of_occur hrun) hold hback.1).snoc
      rw [hold, runIo_snoc, hs]
    · by_cases hforeign : o.origin = .foreign
      · exact appMade_snoc hforeign hold hs
      · have hback := occur_back hbefore (fun hchange _ hdeferred hserial =>
          e.stale_back hchange (fun h => absurd h hforeign) hdeferred hserial) hs hstale
        exact absurd hback.2 hold

/-- No callback of a probe is called with an argument that is freed exactly when no connection
inherits them. -/
theorem stale_never_iff (hp : Steady p.net)
    (hfresh : ∀ e : ConnectionEvent, (p.net.connections i).bev ≠ none →
      ¬ e.Stale (p.net.connections i)) :
  NeverFreed i p os ↔ NoneInherits i p os
  := by
  have hiff : ∀ (e : ConnectionEvent) before, e.Due (p.runIo before) i →
      (e.Stale ((p.runIo before).net.connections i)
        ↔ Inherits e.Stale [e.field, .cbArg] p before i) := by
    intro e before hdue
    obtain ⟨hrun, s, hs⟩ := hdue.serialIn
    rw [← e.stale_inheritable.inherits_iff hp hrun]
    exact ⟨fun hstale => ⟨appMade_of_stale hp (hfresh e) hrun hs hstale, hstale⟩, And.right⟩
  constructor
  · intro hnever before o after e heq harrival hdue hinherits
    have hstale := (hiff e before hdue).mpr hinherits
    obtain ⟨hcalled, hcalls⟩ := ConnectionEvent.calledWith_freed_iff.mpr ⟨hdue, hstale⟩
    exact hnever before o after e heq harrival hcalled hcalls
  · intro hnone before o after e heq harrival hcalled hcalls
    obtain ⟨hdue, hstale⟩ := ConnectionEvent.calledWith_freed_iff.mp ⟨hcalled, hcalls⟩
    exact hnone before o after e heq harrival hdue ((hiff e before hdue).mp hstale)

/-! ### Every probe -/

/-- A probe that can be sent waits for its answer. -/
theorem probing_of_canSend (hwrites : AppWrites p.net) (hsend : p.net.CanSend)
    (hi : netEmptyConnectionSlot p.net = some i) (n : NodeInfo) (cb : CheckCb) :
  Probing (nodeCheckNode p n cb).net i p.net.nextSerial cb
    ∧ (nodeCheckNode p n cb).net.nextSerial = p.net.nextSerial + 1
  := by
  have hc : (nodeCheckNode p n cb).net.connections i
      = taken (p.net.connections i) i
          { p.net.freshBev n.IP with
            output := (Request.alive.message n).text, enabled := true }
          (Request.alive.message n) (some .nodeCheckNodeReply) (some .nodeCheckNodeEvent)
          (some (.check cb)) := by
    show (p.net.checkNode n cb).connections i = _
    rw [NodeNet.checkNode, nodeConnectAndSendMessage_of_canSend hsend hi]
    exact Function.update_self ..
  have hnext : (nodeCheckNode p n cb).net.nextSerial = p.net.nextSerial + 1 := by
    show (p.net.checkNode n cb).nextSerial = _
    rw [NodeNet.checkNode, nodeConnectAndSendMessage_of_canSend hsend hi]
  refine ⟨?_, hnext⟩
  constructor
  · refine ⟨{ p.net.freshBev n.IP with
        output := (Request.alive.message n).text, enabled := true }, ?_, rfl, rfl, rfl, rfl⟩
    rw [hc]
    rfl
  · rw [hc]
    rfl
  · rw [hc]
    exact hwrites i
  · rw [hc]
    rfl
  · rw [hc]
    rfl

theorem probeConnection_of_probing {n : NodeInfo} (hi : netEmptyConnectionSlot p.net = some i)
    (h : Probing (nodeCheckNode p n cb).net i p.net.nextSerial cb) :
  probeConnection p n cb = some (i, p.net.nextSerial)
  := by
  rw [probeConnection, hi, Option.bind_some, if_pos h.serialIn]

/-- Nothing is reported when a probe is started. -/
theorem probeResults_eq (p : NodeProcess) (n : NodeInfo) (cb : CheckCb) (q : NodeProcess)
    (os : List Occurrence) :
  probeResults p n cb q os
    = match probeConnection p n cb with
      | some (i, s) => resultsOn i s q os
      | none => []
  := by
  have hlog : (nodeCheckNode p n cb).log = p.log ++ [.probed cb] := rfl
  rw [probeResults, loggedSince, hlog, List.drop_left]
  rfl

theorem ProbeStarts.steady {n : NodeInfo} (hstart : ProbeStarts p n cb q os) :
  Steady p.net
  := by
  obtain ⟨s, outcome, history, hbefore⟩ := hstart.before
  exact ((steady_boot s outcome).runIo history).calls hbefore

/-- A probe that cannot be sent reports nothing. -/
theorem probeResults_unsent {n : NodeInfo} (hstart : ProbeStarts p n cb q os)
    (hsend : ¬ p.net.CanSend) :
  probeResults p n cb q os = []
  := by
  rw [probeResults_eq]
  cases hconn : probeConnection p n cb with
  | none => rfl
  | some c =>
    obtain ⟨i, s⟩ := c
    have happ := hstart.app i s hconn
    rw [probeConnection, Option.bind_eq_some_iff] at hconn
    obtain ⟨j, hj, hconn⟩ := hconn
    split_ifs at hconn with hserial
    obtain ⟨rfl, rfl⟩ := Prod.mk.inj (Option.some.inj hconn)
    obtain ⟨b, hb, hs⟩ := Option.map_eq_some_iff.mp hserial
    have hoff : NodeNet.isEnabled (nodeCheckNode p n cb).net j = false :=
      isEnabled_of_not_canSend hsend hj _ _ _ _
    have hdormant : Dormant (nodeCheckNode p n cb).net j p.net.nextSerial :=
      ⟨b, hb, hs, (NodeNet.isEnabled_of_bev hb).symm.trans hoff⟩
    exact congrArg probesAnswered
      ((hdormant.congr (hstart.after.kept hdormant.taken)).loggedOn happ)

/-- The result of a probe that ends is reported once exactly when the probe was sent, and a line
that comes at once or a failure is what ends it. -/
theorem probeResults_iff {n : NodeInfo} {success : Bool} (hstart : ProbeStarts p n cb q os)
    (hends : ProbeEnds p os success) :
  probeResults p n cb q os = [(cb, success)]
    ↔ p.net.CanSend ∧ ∃ i, netEmptyConnectionSlot p.net = some i ∧ LineOrFailure i q os
  := by
  cases hends with
  | unsent hsend =>
    rw [probeResults_unsent hstart hsend]
    exact iff_of_false (List.cons_ne_nil _ _).symm fun h => hsend h.1
  | @ended i success hsend hi hverdict =>
    obtain ⟨hprobing, hnext⟩ := probing_of_canSend hstart.steady.writes hsend hi n cb
    have hconn := probeConnection_of_probing hi hprobing
    have hlt : p.net.nextSerial < q.net.nextSerial := by
      have hle := hstart.after.evolves.nextSerial
      omega
    obtain ⟨hreports, hsilent⟩ :=
      (hprobing.congr (hstart.after.kept hprobing.taken)).run hlt (hstart.app _ _ hconn) hverdict
    have hresults : probeResults p n cb q os = resultsOn i p.net.nextSerial q os := by
      rw [probeResults_eq, hconn]
    rw [hresults]
    constructor
    · intro h
      refine ⟨hsend, i, hi, ?_⟩
      by_contra hno
      rw [hsilent hno] at h
      cases h
    · rintro ⟨-, j, hj, hfirst⟩
      obtain rfl := Option.some.inj (hi.symm.trans hj)
      exact hreports hfirst

/-- The callbacks of a probe that was sent are called with no argument that is freed exactly when
no connection inherits them. -/
theorem ProbeStarts.neverFreed_iff {n : NodeInfo} (hstart : ProbeStarts p n cb q os)
    (hsend : p.net.CanSend) (hi : netEmptyConnectionSlot p.net = some i) :
  (∀ j s, probeConnection p n cb = some (j, s) → NeverFreed j q os) ↔ NoneInherits i q os
  := by
  obtain ⟨hprobing, -⟩ := probing_of_canSend hstart.steady.writes hsend hi n cb
  have hconn := probeConnection_of_probing hi hprobing
  have hprobing' := hprobing.congr (hstart.after.kept hprobing.taken)
  have hfresh : ∀ e : ConnectionEvent, (q.net.connections i).bev ≠ none →
      ¬ e.Stale (q.net.connections i) := by
    rintro e - ⟨-, hfreed⟩
    rw [hprobing'.arg] at hfreed
    cases hfreed
  have hchecked : Calls (fun _ => True) p.net (nodeCheckNode p n cb).net :=
    Calls.refl.checkNode p.node n cb
  rw [← stale_never_iff ((hstart.steady.calls hchecked).calls hstart.after) hfresh]
  constructor
  · intro hnever
    exact hnever i _ hconn
  · intro hnever j s hj
    obtain ⟨rfl, -⟩ := Prod.mk.inj (Option.some.inj (hconn.symm.trans hj))
    exact hnever

/-- A probe that ends reports its one result, and its callbacks are not called again after its
argument was freed, exactly when it was sent, a line that comes at once or a failure is what
ends it, and no connection that the application makes in its slot later inherits the callbacks. -/
theorem reportsOnce_iff {n : NodeInfo} {success : Bool} (hstart : ProbeStarts p n cb q os)
    (hends : ProbeEnds p os success) :
  ReportsOnce p n cb q os success
    ↔ p.net.CanSend ∧ ∃ i, netEmptyConnectionSlot p.net = some i ∧ LineOrFailure i q os
      ∧ NoneInherits i q os
  := by
  constructor
  · rintro ⟨hresults, hfreed⟩
    obtain ⟨hsend, i, hi, hfirst⟩ := (probeResults_iff hstart hends).mp hresults
    exact ⟨hsend, i, hi, hfirst, (hstart.neverFreed_iff hsend hi).mp hfreed⟩
  · rintro ⟨hsend, i, hi, hfirst, hnone⟩
    exact ⟨(probeResults_iff hstart hends).mpr ⟨hsend, i, hi, hfirst⟩,
      (hstart.neverFreed_iff hsend hi).mpr hnone⟩

/-- What happens first to a process happens on no connection that the application has made. -/
theorem noneInherits_singleton (o : Occurrence) :
  NoneInherits i p [o]
  := by
  intro before o' after e heq _ _ hinherits
  obtain rfl := before_eq_nil heq
  exact not_inherits_nil hinherits

/-- A node that has just been created. -/
def booted : NodeProcess :=
  Process.boot NodeSelf.blank fun _ => Outcome.fine

/-- Its first probe. -/
def bootedProbe : NodeProcess :=
  nodeCheckNode booted nullNode .predResult

/-- The peer answers. -/
def answered : List Occurrence :=
  [.data 0 [replyYes, lineFeed]]

/-- The peer closes the connection. -/
def closedByPeer : List Occurrence :=
  [.event 0 bevEventEof]

theorem bootedProbe_starts (hnamed : o.named = none) :
  ProbeStarts booted nullNode .predResult bootedProbe [o]
  := by
  constructor
  · exact ⟨NodeSelf.blank, fun _ => Outcome.fine, [], Calls.refl⟩
  · exact Calls.refl
  · intro i s _
    refine ⟨?_, trivial⟩
    intro _
    simp [hnamed]

theorem booted_canSend :
  booted.net.CanSend
  := ⟨⟨⟨0, rfl⟩, rfl, rfl⟩, rfl, rfl⟩

theorem booted_slot :
  netEmptyConnectionSlot booted.net = some 0
  := by decide +kernel

theorem reportsOnce_iff_answered :
  ReportsOnce booted nullNode .predResult bootedProbe answered true
  := by
  have hstart : ProbeStarts booted nullNode .predResult bootedProbe answered :=
    bootedProbe_starts rfl
  have hends : ProbeEnds booted answered true := .ended booted_canSend booted_slot (by decide)
  apply (reportsOnce_iff hstart hends).mpr
  refine ⟨booted_canSend, 0, booted_slot, ?_, noneInherits_singleton _⟩
  rw [answered, lineOrFailure_data (by decide +kernel) (List.cons_ne_nil _ _)]
  decide

/-- The peer closes the connection of a probe, and nothing is reported. -/
theorem probe_without_result :
  ¬ ∀ (p : NodeProcess) (n : NodeInfo) (cb : CheckCb) (q : NodeProcess) (os : List Occurrence)
    (success : Bool), ProbeStarts p n cb q os → ProbeEnds p os success →
    ReportsOnce p n cb q os success
  := by
  intro h
  have hstart : ProbeStarts booted nullNode .predResult bootedProbe closedByPeer :=
    bootedProbe_starts rfl
  have hends : ProbeEnds booted closedByPeer false :=
    .ended booted_canSend booted_slot (by decide)
  have hreported := (h _ _ _ _ _ _ hstart hends).results
  revert hreported
  decide +kernel

end
