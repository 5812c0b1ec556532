import LibDht.Net.Delivery

/-!
# Relaying a reply

A lookup that a node makes for another one remembers the number of the slot that its request
came in on, and the answer is written to whatever connection is in that slot when it comes.
It reaches the connection that asked, and no other, exactly when that connection is still
open. An invariant of all runs is that a connection which waits for an answer was made after
the one that asked.
-/

/-- What happens is that the remote answer to a lookup for `d` comes in on the slot `i`. -/
structure AnswerArrives (p : NodeProcess) (o : Occurrence) (i : Fin maxOpenConnections)
    (d : IncomingHandlerData) : Prop where
  running : p.net.crashed = false
  data : ∃ bytes b, o = .data i bytes ∧ bytes ≠ [] ∧ (p.net.connections i).bev = some b
    ∧ b.enabled = true ∧ b.low ≤ (b.input ++ bytes).length
  readCb : (p.net.connections i).readCb = some .nodeFoundRemoteCb
  relay : p.net.relayIn i = some d

/-- The answer that came in on the slot `i` was handed over, its bytes were written to the
connection that asked if that is open, and to no other. -/
structure Relayed (p q : NodeProcess) (i : Fin maxOpenConnections) (d : IncomingHandlerData) :
    Prop where
  running : q.net.crashed = false
  asker : ∃ es n hops, q.log = p.log ++ es ∧ .found (.successorFoundForRemote d) n hops ∈ es
    ∧ ∀ j b, (p.net.connections j).bev = some b → d.asker = some b.serial →
      (q.net.connections j).bev
        = some { b with output := b.output ++ successorReply n (hops + 1) }
  others : ∀ j, j ≠ i → (∀ b, (p.net.connections j).bev = some b → d.asker ≠ some b.serial) →
    (q.net.connections j).bev = (p.net.connections j).bev

/-- Every answer in a run is relayed to the connection that asked. -/
def RelaysRight : NodeProcess → List Occurrence → Prop
  | _, [] => True
  | p, o :: os =>
    (∀ i d, AnswerArrives p o i d → Relayed p (p.occur o) i d) ∧ RelaysRight (p.occur o) os

/-- Whenever an answer arrives in a run, the connection that asked is in its slot. -/
def AskersStay : NodeProcess → List Occurrence → Prop
  | _, [] => True
  | p, o :: os =>
    (∀ i d, AnswerArrives p o i d → p.net.serialAt d.connection = d.asker)
      ∧ AskersStay (p.occur o) os

/-! ### Those who wait -/

/-- A connection that waits for an answer was made after the one that asked. -/
structure AskersOlder (net : NodeNet) : Prop where
  numbered : net.Numbered
  older : ∀ {i d}, net.relayIn i = some d →
    ∃ k, d.asker = some k ∧ k < net.nextSerial ∧ ∀ s, net.serialIn i = some s → k < s

theorem askersOlder_boot (s : NodeSelf) (outcome : ℕ → Outcome) :
  AskersOlder (Process.boot s outcome).net
  := by
  refine ⟨numbered_boot s outcome, ?_⟩
  intro i d hd
  cases hd

/-- Whatever happens, those who wait are younger than those who asked. -/
theorem AskersOlder.occur {p : NodeProcess} (h : AskersOlder p.net) (o : Occurrence) :
  AskersOlder (p.occur o).net
  := by
  have hnet := (occur_happens p o).net
  refine ⟨hnet.numbered h.numbered, ?_⟩
  intro i d hd
  rcases hnet.relay hd with hold | ⟨⟨j, -, k, hk, hasker⟩, hnew⟩
  · obtain ⟨k, hasker, hlt, hyounger⟩ := h.older hold
    refine ⟨k, hasker, lt_of_lt_of_le hlt hnet.nextSerial, ?_⟩
    intro s hs
    rcases hnet.serial hs with hs' | hs'
    · exact hyounger s hs'
    · exact lt_of_lt_of_le hlt hs'
  · have hlt := h.numbered.lt hk
    refine ⟨k, hasker, lt_of_lt_of_le hlt hnet.nextSerial, ?_⟩
    intro s hs
    exact lt_of_lt_of_le hlt (hnew s hs)

/-! ### The answer -/

section

variable {p : NodeProcess} {o : Occurrence} {i : Fin maxOpenConnections}
  {d : IncomingHandlerData}

theorem NodeNet.relayOf_eq_some {arg : Option CbArg} (h : relayOf arg = some d) :
  ∃ data, arg = some (.found data) ∧ data.cb = .successorFoundForRemote d
  := by
  unfold relayOf at h
  split at h
  · rename_i data
    split at h
    · rename_i d' hcb
      obtain rfl := Option.some.inj h
      exact ⟨data, rfl, hcb⟩
    · cases h
  · cases h

/-- The reply is written to the slot that is remembered, when there is a connection in it. -/
theorem NodeNet.successorFoundForRemote_of_bev {net : NodeNet} {j : Fin maxOpenConnections}
    {b : Bufferevent} (hb : (net.connections j).bev = some b) (hd : d.connection = j.val)
    (n : NodeInfo) (hops : Int16) :
  net.successorFoundForRemote d n hops = net.write j (successorReply n (hops + 1))
  := by
  simp [successorFoundForRemote, netConnectionGetBuffer, hd, hb]

/-- The process crashes when there is none. -/
theorem NodeNet.successorFoundForRemote_crashed {net : NodeNet}
    (h : ∀ j : Fin maxOpenConnections, d.connection = j.val → (net.connections j).bev = none)
    (n : NodeInfo) (hops : Int16) :
  (net.successorFoundForRemote d n hops).crashed = true
  := by
  rw [successorFoundForRemote, netConnectionGetBuffer]
  cases hj : netSlot d.connection with
  | none => rfl
  | some j =>
    dsimp only
    rw [h j (netSlot_eq_some hj)]
    rfl

/-- The connection that an answer comes in on is closed, and no other one is touched. -/
theorem closed_bev {q : NodeProcess} {b : Bufferevent} (arg : CbArg)
    (hother : ∀ j, j ≠ i → (q.net.connections j).bev = (p.net.connections j).bev) :
  let net := (((q.ask.2.emit (.replyRead b.serial)).close i.val).free i.val arg).net
  (net.connections i).bev = none
    ∧ ∀ j, j ≠ i → (net.connections j).bev = (p.net.connections j).bev
  := by
  simp only [Process.free_net, Process.close_net, Process.emit_net, Process.ask_net,
    netConnectionClose, netConnectionSet, netSlot_coe, NetServer.modify, NetServer.ask]
  constructor
  · simp
  · intro j hj
    simp only [Function.update_of_ne hj]
    exact hother j hj

/-- After the connection that an answer came in on is closed, the reply is written. -/
theorem AnswerArrives.occur (h : AnswerArrives p o i d) :
  ∃ net es n hops, (p.occur o).net = NodeNet.successorFoundForRemote net d n hops
    ∧ (p.occur o).log = p.log ++ es ∧ .found (.successorFoundForRemote d) n hops ∈ es
    ∧ net.crashed = false ∧ (net.connections i).bev = none
    ∧ ∀ j, j ≠ i → (net.connections j).bev = (p.net.connections j).bev
  := by
  obtain ⟨bytes, b, rfl, hbytes, hb, henabled, hlow⟩ := h.data
  obtain ⟨data, harg, hcb⟩ := NodeNet.relayOf_eq_some h.relay
  generalize hq : p.setInput i (b.input ++ bytes) = q
  have hbev : (q.net.connections i).bev = some { b with input := b.input ++ bytes } := by
    rw [← hq]
    exact setInput_bev hb _
  have hother : ∀ j, j ≠ i → (q.net.connections j).bev = (p.net.connections j).bev := by
    intro j hj
    rw [← hq]
    exact setInput_bev_of_ne hj _
  have hlog : q.log = p.log := by
    rw [← hq, Process.setInput_log]
  have hrunning : q.net.crashed = false := by
    rw [← hq]
    exact h.running
  have hready : readReady q i = nodeFoundRemoteCb q i.val (some (.found data)) := by
    rw [← hq, readReady_setInput h.readCb, harg, runDataCb]
  have hoccur : p.occur (.data i bytes) = nodeFoundRemoteCb q i.val (some (.found data)) := by
    rw [Process.occur_of_running h.running, Occurrence.handle, arrive, hb]
    simp only [h.running, henabled, Bool.not_true, Bool.or_self, Bool.false_or]
    rw [if_neg (by simpa using hbytes), hq, if_neg (not_lt.mpr hlow), ← hready, readReady]
  have hafter := closed_bev (b := { b with input := b.input ++ bytes }) (.found data) hother
  rw [hoccur, nodeFoundRemoteCb_of_bev hbev, hcb]
  dsimp only at hafter ⊢
  generalize hr : (((q.ask.2.emit (.replyRead b.serial)).close i.val).free i.val _) = r
    at hafter ⊢
  have hrlog : r.log = p.log ++ [.replyRead b.serial] := by
    rw [← hr]
    simp [hlog]
  have hrrunning : r.net.crashed = false := by
    rw [← hr]
    simp [netConnectionSet, netConnectionClose, NetServer.modify, NetServer.ask, hrunning]
  refine ⟨r.net, [.replyRead b.serial, .found (.successorFoundForRemote d) _ _], _, _, rfl, ?_,
    List.mem_cons_of_mem _ List.mem_cons_self, hrrunning, hafter.1, hafter.2⟩
  simp [nodeFound, nodeSuccessorFoundForRemote, hrlog]

theorem NetServer.write_bev {net : NodeNet} {j : Fin maxOpenConnections} {b : Bufferevent}
    (hb : (net.connections j).bev = some b) (bytes : List UInt8) :
  ((net.write j bytes).connections j).bev = some { b with output := b.output ++ bytes }
  := by
  simp [NetServer.write, NetServer.modifyBev, NetServer.modify, hb]

theorem NetServer.write_bev_of_ne (net : NodeNet) {j j' : Fin maxOpenConnections} (hj : j' ≠ j)
    (bytes : List UInt8) :
  ((net.write j bytes).connections j').bev = (net.connections j').bev
  := by
  simp [NetServer.write, NetServer.modifyBev, NetServer.modify, Function.update_of_ne hj]

/-- An answer that is relayed to the connection that asked, and to no other, finds it in its
slot: an empty slot crashes the process, and another connection gets what is not its own. -/
theorem AnswerArrives.stays_of_relayed (h : AnswerArrives p o i d)
    (hrelayed : Relayed p (p.occur o) i d) :
  p.net.serialAt d.connection = d.asker
  := by
  obtain ⟨net, es, n, hops, hnet, -, -, -, hclosed, hkept⟩ := h.occur
  by_cases hopen : ∃ (j : Fin maxOpenConnections) (b : Bufferevent),
      d.connection = (j.val : ℤ) ∧ (net.connections j).bev = some b
  · obtain ⟨j, b, hd, hb⟩ := hopen
    have hj : j ≠ i := by
      rintro rfl
      rw [hb] at hclosed
      cases hclosed
    have hbp : (p.net.connections j).bev = some b := by rw [← hkept j hj, hb]
    rw [hd, NetServer.serialAt_coe, NodeNet.serialIn, hbp, Option.map_some]
    by_contra hne
    have hsame := hrelayed.others j hj (by
      intro b' hb'
      rw [hbp] at hb'
      obtain rfl := Option.some.inj hb'
      exact Ne.symm hne)
    rw [hnet, NodeNet.successorFoundForRemote_of_bev hb hd, NetServer.write_bev hb, hbp] at hsame
    have houtput := congrArg Bufferevent.output (Option.some.inj hsame)
    simp [successorReply] at houtput
  · have hcrashed := hrelayed.running
    rw [hnet, NodeNet.successorFoundForRemote_crashed] at hcrashed
    · cases hcrashed
    · intro j hd
      by_contra hbev
      obtain ⟨b, hb⟩ := Option.ne_none_iff_exists'.mp hbev
      exact hopen ⟨j, b, hd, hb⟩

/-- An answer is relayed to the connection that asked, when that is in its slot. -/
theorem AnswerArrives.relayed_of_stays (h : AnswerArrives p o i d) (holder : AskersOlder p.net)
    (hstays : p.net.serialAt d.connection = d.asker) :
  Relayed p (p.occur o) i d
  := by
  obtain ⟨net, es, n, hops, hnet, hlog, hfound, hrunning, hclosed, hkept⟩ := h.occur
  obtain ⟨k, hasker, -, hyounger⟩ := holder.older h.relay
  rw [hasker] at hstays
  obtain ⟨j, hslot, hbev⟩ := Option.bind_eq_some_iff.mp hstays
  have hd := netSlot_eq_some hslot
  have hj : j ≠ i := by
    rintro rfl
    exact lt_irrefl k (hyounger k hbev)
  obtain ⟨b, hbp, hserial⟩ := Option.map_eq_some_iff.mp hbev
  have hb : (net.connections j).bev = some b := by rw [hkept j hj, hbp]
  rw [NodeNet.successorFoundForRemote_of_bev hb hd] at hnet
  constructor
  · rw [hnet]
    exact hrunning
  · refine ⟨es, n, hops, hlog, hfound, ?_⟩
    intro j' b' hb' hasker'
    have hserial' : p.net.serialIn j' = some k := by
      rw [NodeNet.serialIn, hb', Option.map_some, ← hasker', hasker]
    obtain rfl := holder.numbered.eq hbev hserial'
    rw [hbp] at hb'
    obtain rfl := Option.some.inj hb'
    rw [hnet, NetServer.write_bev hb]
  · intro j' hj' hne
    rw [hnet, NetServer.write_bev_of_ne, hkept j' hj']
    rintro rfl
    apply hne b hbp
    rw [hasker, hserial]

end

/-! ### Runs -/

/-- In every run, the answers are relayed to the connections that asked, and to no other,
exactly when each of these is still open when its answer comes. -/
theorem relaysRight_iff (s : NodeSelf) (outcome : ℕ → Outcome) (os : List Occurrence) :
  RelaysRight (Process.boot s outcome) os ↔ AskersStay (Process.boot s outcome) os
  := by
  have holder := askersOlder_boot s outcome
  generalize Process.boot s outcome = p at holder ⊢
  induction os generalizing p with
  | nil => exact Iff.rfl
  | cons o os ih =>
    apply and_congr
    · constructor
      · intro h i d harrives
        exact harrives.stays_of_relayed (h i d harrives)
      · intro h i d harrives
        exact harrives.relayed_of_stays holder (h i d harrives)
    · exact ih (p.occur o) (holder.occur o)

/-- A node with the identifier `0` whose successor has the identifier `10`. -/
def forwarding : NodeSelf :=
  { NodeSelf.blank with successor := Function.update NodeSelf.blank.successor 0 ⟨10, 7, 5⟩ }

/-- A node asks for the successor of `20` and disconnects, another one connects, and the
answer comes. -/
def lateAnswer : List Occurrence :=
  [.accept 1, .data 0 (Request.findSuccessor 20).wire, .event 0 bevEventEof, .accept 2,
    .data 1 (successorReply ⟨30, 9, 9⟩ 0)]

/-- Before the answer comes. -/
def beforeAnswer : NodeProcess :=
  (Process.boot forwarding fun _ => .fine).runIo (lateAnswer.take 4)

/-- The connection on which the answer is awaited. -/
def awaitingBev : Bufferevent :=
  { serial := 1, input := [], output := (Request.findSuccessor 20).wire, low := 0
    enabled := true, peer := 7 }

theorem answerArrives_lateAnswer :
  AnswerArrives beforeAnswer (.data 1 (successorReply ⟨30, 9, 9⟩ 0)) 1
    { connection := 0, asker := some 0 }
  := by
  refine ⟨by decide +kernel, ⟨_, awaitingBev, rfl, by simp [successorReply], by decide +kernel,
    rfl, Nat.zero_le _⟩, by decide +kernel, by decide +kernel⟩

/-- The answer goes to a connection that did not ask. -/
theorem late_answer_misdirected :
  ¬ ∀ (s : NodeSelf) (outcome : ℕ → Outcome) (os : List Occurrence),
    RelaysRight (Process.boot s outcome) os
  := by
  intro h
  obtain ⟨-, -, -, -, hlast, -⟩ := h forwarding (fun _ => .fine) lateAnswer
  have hstays := answerArrives_lateAnswer.stays_of_relayed (hlast 1 _ answerArrives_lateAnswer)
  revert hstays
  decide +kernel
