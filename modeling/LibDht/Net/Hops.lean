import LibDht.Net.Exhaustion
import LibDht.Net.Framing
import LibDht.Net.Relay
import LibDht.Net.Replies
import LibDht.Ring.Stable

/-!
# The hops of a lookup

The node that answers a lookup starts a count of hops, and every node on the way back adds
one to it: it reads the count in the reply that comes to it, and writes the next one in its
own reply. The count is a `short`, in memory and in the replies.

A lookup is followed through the processes of a network, which are in any of their states
when its requests and replies come to them. What is handed to the callback of the node that
started it is the number of its forwards, as far as that fits a `short`: the count starts
again at `-32768` after `32767`. The proof is by induction on the way back.
-/

/-- The node finds the answer to a lookup without asking another one. -/
def NodeSelf.Knows (s : NodeSelf) (id : HashType) : Prop :=
  s.self.id = id ∨ s.Answers id

instance (s : NodeSelf) (id : HashType) : Decidable (s.Knows id) :=
  inferInstanceAs (Decidable (_ ∨ _))

/-- The callback of a lookup that came in on the slot `j`, on the connection with the serial
`s`. -/
def answerTo (j : Fin maxOpenConnections) (s : ℕ) : FoundCb :=
  .successorFoundForRemote { connection := j.val, asker := some s }

/-- From the state `p` to the state `q`, the process has written `bytes` to the connection with
the serial `s` in the slot `j`. -/
def Wrote (p q : NodeProcess) (j : Fin maxOpenConnections) (s : ℕ) (bytes : List UInt8) : Prop :=
  ∃ b b', (p.net.connections j).bev = some b ∧ b.serial = s ∧ (q.net.connections j).bev = some b'
    ∧ b'.output = b.output ++ bytes

/-- In a network whose nodes go through the states `nodes`, the node `i` is asked for the
successor of `id`, the request is forwarded `k` times from there on, and the node writes
`reply`. A node that forwards the request waits on the connection `t` for the reply to that,
and is in any later state when it comes. -/
inductive RepliesAfter (nodes : HashType → Set NodeProcess) (id : HashType) :
    HashType → ℕ → List UInt8 → Prop where
  | known {i : HashType} {p : NodeProcess} {j : Fin maxOpenConnections} {s : ℕ}
      {reply : List UInt8} (hp : p ∈ nodes i) (haccepted : Accepted p j s)
      (hknows : p.node.Knows id)
      (hwrote : Wrote p (p.deliver j s [(Request.findSuccessor id).wire]) j s reply) :
      RepliesAfter nodes id i 0 reply
  | forwarded {i : HashType} {p r : NodeProcess} {j c : Fin maxOpenConnections} {s t k : ℕ}
      {data : NodeFoundCbData} {answer reply : List UInt8} (hp : p ∈ nodes i)
      (haccepted : Accepted p j s) (hknows : ¬ p.node.Knows id)
      (hwaits : AwaitsNode (p.deliver j s [(Request.findSuccessor id).wire]) c t data)
      (hcb : data.cb = answerTo j s) (hr : r ∈ nodes i) (hstill : AwaitsNode r c t data)
      (hanswer : RepliesAfter nodes id (nodeClosestPrecedingNode p.node id).id k answer)
      (hwrote : Wrote r (r.deliver c t [answer]) j s reply) :
      RepliesAfter nodes id i (k + 1) reply

/-- A process asks the node `n` for the successor of `id`: in a lookup that it starts, or
because it joins the network of `n`. -/
def Asks (p : NodeProcess) (id : HashType) (cb : FoundCb) (n : NodeInfo) (q : NodeProcess) :
    Prop :=
  ¬ p.node.Knows id ∧ n = nodeClosestPrecedingNode p.node id ∧ q = (nodeFindSuccessor p id cb).2
    ∨ q = (nodeFindSuccessorRemote p n id cb).2

/-- In a network whose nodes go through the states `nodes`, the node `i` starts a lookup of
`id`, which is forwarded `k` times, and the callback `cb` is handed the node `n`, found in
`hops`. -/
inductive HandsAfter (nodes : HashType → Set NodeProcess) (id : HashType) (cb : FoundCb) :
    HashType → ℕ → NodeInfo → Int16 → Prop where
  | known {i : HashType} {p : NodeProcess} {n : NodeInfo} {hops : Int16} {es : List Event}
      (hp : p ∈ nodes i) (hknows : p.node.Knows id)
      (hlog : (nodeFindSuccessor p id cb).2.log = p.log ++ es)
      (hhanded : (cb, n, hops) ∈ nodesHanded es) :
      HandsAfter nodes id cb i 0 n hops
  | forwarded {i : HashType} {p q r : NodeProcess} {c : Fin maxOpenConnections} {t k : ℕ}
      {asked n : NodeInfo} {hops : Int16} {data : NodeFoundCbData} {answer : List UInt8}
      {es : List Event} (hp : p ∈ nodes i) (hasks : Asks p id cb asked q)
      (hwaits : AwaitsNode q c t data) (hcb : data.cb = cb) (hr : r ∈ nodes i)
      (hstill : AwaitsNode r c t data) (hanswer : RepliesAfter nodes id asked.id k answer)
      (hlog : (r.deliver c t [answer]).log = r.log ++ es)
      (hhanded : (cb, n, hops) ∈ nodesHanded es) :
      HandsAfter nodes id cb i (k + 1) n hops

/-! ### A request that arrives whole -/

section

variable {p : NodeProcess} {j : Fin maxOpenConnections} {s : ℕ}

/-- A connection on which a request for a successor has arrived whole is as before, and the
lookup is started. -/
theorem deliver_findSuccessor {b : Bufferevent} (h : Accepted p j s)
    (hb : (p.net.connections j).bev = some b) (id : HashType) :
  ∃ q : NodeProcess, q.node = p.node
    ∧ q.net = { p.net with
      connections := Function.update p.net.connections j
        { p.net.connections j with bev := some { b with input := [] } }
      calls := p.net.calls + 2 }
    ∧ (p.net.Numbered → q.net.Numbered)
    ∧ p.deliver j s [(Request.findSuccessor id).wire]
      = (nodeFindSuccessor q id (answerTo j s)).2
  := by
  obtain ⟨b', hconn, -, -, -⟩ := h.bev
  obtain rfl : b = b' := Option.some.inj (hb.symm.trans hconn.bev)
  let r : Request := .findSuccessor id
  generalize hin : p.setInput j r.wire = p₁
  have hbev₁ : (p₁.net.connections j).bev = some { b with input := r.wire } := by
    rw [← hin]
    exact setInput_bev hb _
  have hready : readReady p₁ j
      = handleSuccRequest (p₁.ask.2.setInput j r.body) j.val (some .self) := by
    rw [← hin, readReady_setInput h.readCb, h.arg, runDataCb, hin,
      incomingReadCb_header hbev₁ r.wire_eq]
    exact handleBody_type _ _ r 0
  generalize hbody : p₁.ask.2.setInput j r.body = p₂ at hready
  have hbev₂ : (p₂.net.connections j).bev = some { b with input := r.body } := by
    rw [← hbody]
    exact setInput_bev (p := p₁.ask.2) hbev₁ _
  have hserial : p₂.ask.2.net.serialAt j.val = some s := by
    rw [NetServer.serialAt_coe, Process.ask_net, serialIn_ask, NodeNet.serialIn, hbev₂,
      Option.map_some, hconn.serial]
  refine ⟨(p₂.ask.2.setInput j []).emit (.handled j.val r r.body.length), ?_, ?_, ?_, ?_⟩
  · rw [← hbody, ← hin]
    rfl
  · rw [← hbody, ← hin]
    simp [Process.setInput, NetServer.modifyBev, NetServer.modify, NetServer.ask, hb]
  · have hmoves : Moves (fun _ => True) p (p.setInput j r.wire) := (Moves.refl p).setInput j r.wire
    have hread := (hmoves.ask.setInput j r.body).ask.setInput j []
    rw [← hbody, ← hin]
    exact hread.net.numbered
  · have hfill : u32.fill p₂.ask.1.node.id r.body = (id, []) := u32.fill_encode _ id
    rw [deliver_wire h r, hin, hready, handleSuccRequest, withBuffer_of_bev hbev₂]
    simp only [hfill]
    rw [answerTo, ← hserial]
    simp [r]

/-! ### Replies -/

/-- What is handed to the callback of a lookup that came in is written to its connection, with
one hop more. -/
theorem nodeFound_answerTo {b : Bufferevent} (hb : (p.net.connections j).bev = some b)
    (n : NodeInfo) (hops : Int16) :
  ((nodeFound p { cb := answerTo j s, node := n, hops := hops }).net.connections j).bev
    = some { b with output := b.output ++ successorReply n (hops + 1) }
  := by
  have hnet : (nodeFound p { cb := answerTo j s, node := n, hops := hops }).net
      = NodeNet.successorFoundForRemote p.net { connection := j.val, asker := some s } n hops := by
    simp [nodeFound, answerTo, nodeSuccessorFoundForRemote, Remote.successorFoundForRemote]
  rw [hnet, NodeNet.successorFoundForRemote_of_bev hb rfl, NetServer.write_bev hb]

/-- A node that knows the answer writes a reply that counts one hop. -/
theorem nodeFindSuccessor_answerTo {id : HashType} (hknows : p.node.Knows id) {b : Bufferevent}
    (hb : (p.net.connections j).bev = some b) :
  ∃ n rest, ((nodeFindSuccessor p id (answerTo j s)).2.net.connections j).bev
    = some { b with output := b.output ++ (successorReply n 1 ++ rest) }
  := by
  by_cases hself : p.node.self.id = id
  · -- the callback is called again with what it has freed, and writes nothing
    have hfirst := nodeFound_answerTo (s := s) hb p.node.self 0
    rw [nodeFindSuccessor_self _ hself]
    generalize nodeFound p _ = q at hfirst ⊢
    refine ⟨p.node.self, [], ?_⟩
    rw [List.append_nil, ← Int16.zero_add 1, ← hfirst]
    rfl
  · have hfirst := nodeFound_answerTo (p := p.lock.touch (nodeFirstAliveSucc p.node)) (s := s) hb
      p.node.firstSucc 0
    rw [nodeFindSuccessor_answer _ hself (hknows.resolve_left hself)]
    refine ⟨p.node.firstSucc, [], ?_⟩
    rw [Process.unlock_net, hfirst, List.append_nil, Int16.zero_add]

/-! ### A reply that arrives whole -/

/-- A reply that is there whole is read as the node and the hops that were written, whatever
comes behind it. -/
theorem readFound_successorReply (old : NodeInfo × Int16) (result : UInt8) (n : NodeInfo)
    (hops : Int16) (rest : List UInt8) :
  readFound old result (successorReply n hops ++ rest) = (n, hops)
  := by
  rw [successorReply, List.cons_append, List.append_assoc, readFound_node,
    i16.fill_encode_append]

/-- A reply that arrives whole is read at once. -/
theorem collect_successorReply (n : NodeInfo) (hops : Int16) (rest : List UInt8) :
  collect 1 [] [successorReply n hops ++ rest] = some (successorReply n hops ++ rest, [])
  := by
  have hlen : 1 ≤ (successorReply n hops ++ rest).length := by
    rw [successorReply, List.cons_append, List.length_cons]
    exact Nat.le_add_left 1 _
  rw [collect, List.nil_append, if_pos hlen]

/-- A reply that arrives whole is handed to the callback of its lookup. Its connection is closed
before, and no other one is touched. -/
theorem deliver_answer {c : Fin maxOpenConnections} {t : ℕ} {data : NodeFoundCbData}
    (h : AwaitsNode p c t data) (n : NodeInfo) (hops : Int16) (rest : List UInt8) :
  ∃ q : NodeProcess, (q.net.connections c).bev = none
    ∧ (∀ j, j ≠ c → (q.net.connections j).bev = (p.net.connections j).bev)
    ∧ p.deliver c t [successorReply n hops ++ rest]
      = nodeFound q { cb := data.cb, node := n, hops := hops }
  := by
  obtain ⟨b, hconn, hinput, hlow⟩ := h.bev
  have hcollect := collect_successorReply n hops rest
  generalize hanswer : successorReply n hops ++ rest = answer at hcollect
  generalize hq : p.setInput c answer = q
  have hbev : (q.net.connections c).bev = some { b with input := answer } := by
    rw [← hq]
    exact setInput_bev hconn.bev _
  have hother : ∀ j, j ≠ c → (q.net.connections j).bev = (p.net.connections j).bev := by
    intro j hj
    rw [← hq]
    exact setInput_bev_of_ne hj _
  have hready : readReady q c = nodeFoundRemoteCb q c.val (some (.found data)) := by
    rw [← hq, readReady_setInput h.readCb, h.arg, runDataCb]
  have hdeliver : p.deliver c t [answer] = readReady q c := by
    rw [deliver_first hconn hinput hlow, hcollect, ← hq]
    exact deliver_nil (by simp)
  have hclosed := closed_bev (p := p) (b := { b with input := answer }) (.found data) hother
  refine ⟨_, hclosed.1, hclosed.2, ?_⟩
  rw [hdeliver, hready, nodeFoundRemoteCb_of_bev hbev, ← hanswer, readFound_successorReply]

/-- A node on the way back writes the reply that it has read, with one hop more. -/
theorem Wrote.answer {c : Fin maxOpenConnections} {t : ℕ} {data : NodeFoundCbData}
    {n : NodeInfo} {hops : Int16} {rest reply : List UInt8} (h : AwaitsNode p c t data)
    (hcb : data.cb = answerTo j s)
    (hwrote : Wrote p (p.deliver c t [successorReply n hops ++ rest]) j s reply) :
  reply = successorReply n (hops + 1)
  := by
  obtain ⟨b, b', hb, -, hb', houtput⟩ := hwrote
  obtain ⟨q, hclosed, hother, hdeliver⟩ := deliver_answer h n hops rest
  rw [hdeliver, hcb] at hb'
  by_cases hj : j = c
  · -- the connection that asked is not the one that was closed
    subst hj
    have hnet : (nodeFound q { cb := answerTo j s, node := n, hops := hops }).net.connections
        = q.net.connections := by
      simp [nodeFound, answerTo, nodeSuccessorFoundForRemote, Remote.successorFoundForRemote,
        NodeNet.successorFoundForRemote, netConnectionGetBuffer, hclosed, NetServer.crash]
    rw [hnet, hclosed] at hb'
    cases hb'
  · have hbev : (q.net.connections j).bev = some b := by rw [hother j hj, hb]
    rw [nodeFound_answerTo hbev] at hb'
    obtain rfl := Option.some.inj hb'
    exact (List.append_cancel_left houtput).symm

/-- A node is handed to its callback once. -/
theorem nodesHanded_nodeFound (data : NodeFoundCbData) :
  ∃ es, (nodeFound p data).log = p.log ++ es
    ∧ nodesHanded es = [(data.cb, data.node, data.hops)]
  := by
  have hsame : Acts (fun cb => ¬ cb.Relays) false
      (p.emit (.found data.cb data.node data.hops))
      (p.emit (.found data.cb data.node data.hops)) := Acts.refl _
  obtain ⟨es, hes, hint⟩ := (nodeFound_acts_of_emit (fun _ h => h) hsame).log
  refine ⟨.found data.cb data.node data.hops :: es, ?_, nodesHanded_found hint _ _ _⟩
  rw [hes, Process.emit_log, List.append_assoc, List.singleton_append]

/-- The node and the hops of a reply that arrives whole are what is handed to the callback. -/
theorem deliver_answer_log {c : Fin maxOpenConnections} {t : ℕ} {data : NodeFoundCbData}
    (h : AwaitsNode p c t data) (n : NodeInfo) (hops : Int16) (rest : List UInt8) :
  ∃ es, (p.deliver c t [successorReply n hops ++ rest]).log = p.log ++ es
    ∧ nodesHanded es = [(data.cb, n, hops)]
  := by
  obtain ⟨es, hes, hhanded⟩ := deliver_node h (collect_successorReply n hops rest)
  rw [readFound_successorReply] at hhanded
  exact ⟨es, hes, hhanded⟩

/-- A node that knows the answer hands it to the callback as found without a hop. -/
theorem nodesHanded_nodeFindSuccessor {id : HashType} (hknows : p.node.Knows id) (cb : FoundCb) :
  ∃ m es, (nodeFindSuccessor p id cb).2.log = p.log ++ es ∧ (cb, m, 0) ∈ nodesHanded es
    ∧ ∀ x ∈ nodesHanded es, x.2.2 = 0
  := by
  by_cases hself : p.node.self.id = id
  · obtain ⟨es, hes, hhanded⟩ :=
      nodesHanded_nodeFound (p := p) { cb := cb, node := p.node.self, hops := 0 }
    rw [nodeFindSuccessor_self cb hself]
    generalize nodeFound p _ = q at hes ⊢
    obtain ⟨es', hes', hhanded'⟩ :=
      nodesHanded_nodeFound (p := q.touch (nodeFirstAliveSucc q.node))
        { cb := cb.called, node := q.node.firstSucc, hops := 0 }
    dsimp only
    generalize nodeFound (q.touch _) _ = q' at hes' ⊢
    have hall : nodesHanded (es ++ [.succIndex (nodeFirstAliveSucc q.node)] ++ es'
        ++ [.unlock q'.succsLock]) = [(cb, p.node.self, 0), (cb.called, q.node.firstSucc, 0)] := by
      simp only [nodesHanded_append, hhanded, hhanded']
      rfl
    refine ⟨p.node.self, es ++ [.succIndex (nodeFirstAliveSucc q.node)] ++ es'
      ++ [.unlock q'.succsLock], ?_, ?_, ?_⟩
    · simp [hes', hes]
    · rw [hall]
      exact List.mem_cons_self
    · intro x hx
      rw [hall, List.mem_pair] at hx
      rcases hx with rfl | rfl <;> rfl
  · obtain ⟨es, hes, hhanded⟩ :=
      nodesHanded_nodeFound (p := p.lock.touch (nodeFirstAliveSucc p.node))
        { cb := cb, node := p.node.firstSucc, hops := 0 }
    rw [nodeFindSuccessor_answer cb hself (hknows.resolve_left hself)]
    generalize nodeFound (p.lock.touch _) _ = q at hes ⊢
    have hall : nodesHanded ([.lock p.succsLock, .succIndex (nodeFirstAliveSucc p.node)] ++ es
        ++ [.unlock q.succsLock]) = [(cb, p.node.firstSucc, 0)] := by
      simp only [nodesHanded_append, hhanded]
      rfl
    refine ⟨p.node.firstSucc, [.lock p.succsLock, .succIndex (nodeFirstAliveSucc p.node)] ++ es
      ++ [.unlock q.succsLock], ?_, ?_, ?_⟩
    · simp [hes]
    · rw [hall]
      exact List.mem_singleton_self _
    · intro x hx
      rw [hall, List.mem_singleton] at hx
      rw [hx]

end

/-! ### The way back -/

/-- The reply of a node counts the forwards from there on, and one more. -/
theorem RepliesAfter.eq {nodes : HashType → Set NodeProcess} {id i : HashType} {k : ℕ}
    {reply : List UInt8} (h : RepliesAfter nodes id i k reply) :
  ∃ n rest, reply = successorReply n (Int16.ofNat (k + 1)) ++ rest
  := by
  -- the induction is on the way back, from the node that knows the answer
  induction h with
  | @known i p j s reply hp haccepted hknows hwrote =>
    obtain ⟨b, b', hb, -, hb', houtput⟩ := hwrote
    obtain ⟨q, hnode, hnet, -, hdeliver⟩ := deliver_findSuccessor haccepted hb id
    rw [hdeliver] at hb'
    have hbev : (q.net.connections j).bev = some { b with input := [] } := by simp [hnet]
    obtain ⟨n, rest, hreply⟩ := nodeFindSuccessor_answerTo (hnode ▸ hknows) hbev
    rw [hreply] at hb'
    obtain rfl := Option.some.inj hb'
    exact ⟨n, rest, (List.append_cancel_left houtput).symm⟩
  | @forwarded i p r j c s t k data answer reply hp haccepted hknows hwaits hcb hr hstill hanswer
      hwrote ih =>
    obtain ⟨n, rest, rfl⟩ := ih
    have hnext : Int16.ofNat (k + 1) + 1 = Int16.ofNat (k + 1 + 1) :=
      (Int16.ofNat_add (k + 1) 1).symm
    refine ⟨n, [], ?_⟩
    rw [hwrote.answer hstill hcb, List.append_nil, hnext]

/-- What is handed to the callback of a lookup is the number of its forwards as a `short`. -/
theorem HandsAfter.hops_eq {nodes : HashType → Set NodeProcess} {id : HashType} {cb : FoundCb}
    {i : HashType} {k : ℕ} {n : NodeInfo} {hops : Int16} (h : HandsAfter nodes id cb i k n hops) :
  hops = Int16.ofNat k
  := by
  cases h with
  | known hp hknows hlog hhanded =>
    obtain ⟨-, es, hes, -, hzero⟩ := nodesHanded_nodeFindSuccessor hknows cb
    rw [hes] at hlog
    obtain rfl := List.append_cancel_left hlog
    exact hzero _ hhanded
  | @forwarded p q r c t k asked n hops data answer es hp hasks hwaits hcb hr hstill hanswer hlog
      hhanded =>
    obtain ⟨n', rest, rfl⟩ := hanswer.eq
    obtain ⟨es', hes', hall⟩ := deliver_answer_log hstill n' (Int16.ofNat (k + 1)) rest
    rw [hes'] at hlog
    obtain rfl := List.append_cancel_left hlog
    rw [hall, List.mem_singleton] at hhanded
    exact congrArg (·.2.2) hhanded

/-! ### A long way -/

section

variable {q : NodeProcess} {c : Fin maxOpenConnections} {id : HashType}

/-- When nothing fails, a request for a successor waits for its reply in the first empty slot,
and the others are as before. -/
theorem NodeNet.findSuccessorRemote_fine {net : NodeNet} (hfine : ∀ k, net.outcome k = .fine)
    (hc : netEmptyConnectionSlot net = some c) (n : NodeInfo) (id : HashType) (cb : FoundCb) :
  let net' := (net.findSuccessorRemote n id cb).2
  net'.crashed = net.crashed
    ∧ (∃ b, (net'.connections c).bev = some b ∧ b.serial = net.nextSerial ∧ b.enabled = true
      ∧ b.input = [] ∧ b.low = 0)
    ∧ (net'.connections c).readCb = some .nodeFoundRemoteCb
    ∧ (net'.connections c).upperCbArg = some (.found { cb := cb, node := nullNode, hops := 0 })
    ∧ ∀ j, j ≠ c → (net'.connections j).bev = (net.connections j).bev
  := by
  have hslot := (netEmptyConnectionSlot_ask net).trans hc
  have hsend : net.ask.2.CanSend := by
    have hfine' : ∀ k, net.ask.2.outcome k = .fine := hfine
    refine ⟨⟨⟨c, netEmptyConnectionSlot_bev hslot⟩, ?_, ?_⟩, ?_, ?_⟩ <;> rw [hfine'] <;> rfl
  have hask : net.ask.1 = .fine := hfine net.calls
  have hpos : ¬ ((c.val : ℤ) < 0) := by omega
  rw [findSuccessorRemote]
  dsimp only
  rw [hask, nodeConnectAndSendMessage_of_canSend hsend hslot]
  dsimp only
  rw [if_neg hpos]
  simp only [netConnectionGetBuffer, netSlot_coe, Function.update_self, taken, NetServer.write,
    NetServer.modifyBev, NetServer.modify]
  refine ⟨rfl, ⟨_, rfl, rfl, rfl, rfl, rfl⟩, rfl, rfl, ?_⟩
  intro j hj
  rw [Function.update_of_ne hj, Function.update_of_ne hj]
  rfl

/-- When nothing fails, a node that does not know the answer waits for the one of another node
in the first empty slot. -/
theorem awaitsNode_nodeFindSuccessor (hrunning : q.net.crashed = false) (hnum : q.net.Numbered)
    (hfine : ∀ k, q.net.outcome k = .fine) (hc : netEmptyConnectionSlot q.net = some c)
    (hknows : ¬ q.node.Knows id) (cb : FoundCb) :
  let r := (nodeFindSuccessor q id cb).2
  AwaitsNode r c q.net.nextSerial { cb := cb, node := nullNode, hops := 0 }
    ∧ ∀ j, j ≠ c → (r.net.connections j).bev = (q.net.connections j).bev
  := by
  obtain ⟨hself, hans⟩ := not_or.mp hknows
  obtain ⟨q', -, hnet, -, hq'⟩ := nodeFindSuccessor_forward cb hself hans
  obtain ⟨hcrashed, ⟨b, hb, hserial, henabled, hinput, hlow⟩, hreadCb, harg, hother⟩ :=
    NodeNet.findSuccessorRemote_fine hfine hc (nodeClosestPrecedingNode q.node id) id cb
  have hadvances : Advances (fun _ => True) q.net
      (q.net.findSuccessorRemote (nodeClosestPrecedingNode q.node id) id cb).2 :=
    NodeNet.findSuccessorRemote_advances _ _ id fun _ _ => trivial
  have hafter : (nodeFindSuccessor q id cb).2.net
      = (q.net.findSuccessorRemote (nodeClosestPrecedingNode q.node id) id cb).2 := by
    rw [hq', ← hnet]
    rfl
  rw [← hafter] at hcrashed hb hreadCb harg hother hadvances
  exact ⟨⟨⟨b, ⟨hcrashed.trans hrunning, hb, hserial, henabled⟩, hinput, hlow⟩,
    hadvances.numbered hnum, hreadCb, harg⟩, hother⟩

/-- The reply that a node on the way back writes, when the connection that asked is open. -/
theorem wrote_answer {j : Fin maxOpenConnections} {s t : ℕ} {b : Bufferevent}
    {data : NodeFoundCbData} (h : AwaitsNode q c t data) (hcb : data.cb = answerTo j s)
    (hj : j ≠ c) (hb : (q.net.connections j).bev = some b) (hserial : b.serial = s)
    (n : NodeInfo) (hops : Int16) (rest : List UInt8) :
  Wrote q (q.deliver c t [successorReply n hops ++ rest]) j s (successorReply n (hops + 1))
  := by
  obtain ⟨q', -, hother, hdeliver⟩ := deliver_answer h n hops rest
  have hbev : (q'.net.connections j).bev = some b := by rw [hother j hj, hb]
  refine ⟨b, { b with output := b.output ++ successorReply n (hops + 1) }, hb, hserial, ?_, rfl⟩
  rw [hdeliver, hcb, nodeFound_answerTo hbev]

end

/-- The first slot of a process that starts is empty. -/
theorem netEmptyConnectionSlot_boot (node : NodeSelf) (outcome : ℕ → Outcome) :
  netEmptyConnectionSlot (Process.boot node outcome).net = some 0
  := by
  rw [netEmptyConnectionSlot_eq_find, Fin.find?_eq_some_iff]
  refine ⟨rfl, ?_⟩
  intro j hj
  exact absurd hj (Nat.not_lt_zero j.val)

/-- The second slot is the first empty one when the first one is taken. -/
theorem netEmptyConnectionSlot_one {net : NodeNet} {b : Bufferevent}
    (hfirst : (net.connections 0).bev = some b) (hsecond : (net.connections 1).bev = none) :
  netEmptyConnectionSlot net = some 1
  := by
  rw [netEmptyConnectionSlot_eq_find, Fin.find?_eq_some_iff]
  constructor
  · rw [hsecond]
    rfl
  · intro j hj
    have hlt : j.val < 1 := hj
    have hzero : j = 0 := Fin.ext (Nat.lt_one_iff.mp hlt)
    rw [hzero, hfirst]
    rfl

/-- The states of the processes of an overlay: those that a process comes to which starts in
the state of a node. -/
def Overlay.processes (o : Overlay) (i : HashType) : Set NodeProcess :=
  { p | ∃ s outcome os, o.node i = some s ∧ p = (Process.boot s outcome).runIo os }

theorem Overlay.boot_mem_processes {o : Overlay} {i : HashType} {s : NodeSelf}
    (hs : o.node i = some s) (outcome : ℕ → Outcome) :
  Process.boot s outcome ∈ o.processes i
  := ⟨s, outcome, [], hs, rfl⟩

theorem Overlay.occur_mem_processes {o : Overlay} {i : HashType} {p : NodeProcess}
    (hp : p ∈ o.processes i) (occurrence : Occurrence) :
  p.occur occurrence ∈ o.processes i
  := by
  obtain ⟨s, outcome, os, hs, rfl⟩ := hp
  exact ⟨s, outcome, os ++ [occurrence], hs, (List.foldl_concat _ _ _ _).symm⟩

/-- Bytes that arrive at once on the connection in a slot. -/
theorem deliver_eq_occur {p : NodeProcess} {i : Fin maxOpenConnections} {s : ℕ} {b : Bufferevent}
    (h : Connected p i s b) (bytes : List UInt8) :
  p.deliver i s [bytes] = p.occur (.data i bytes)
  := by
  rw [Process.occur_of_running h.running, Process.deliver, List.foldl_cons, if_pos h.serialAt]
  rfl

/-- Where the node `i` is. -/
def lineAddress (i : HashType) : NodeInfo :=
  { id := i, IP := i + 1, port := 1 }

/-- The next one of `n` nodes that are numbered from `0`. -/
def lineNext (n : ℕ) (i : HashType) : HashType :=
  if i.toNat + 1 < n then i + 1 else 0

/-- A node that knows the next one only, in a library that is built with `NOFINGER`. -/
def lineNode (n : ℕ) (i : HashType) : NodeSelf :=
  { NodeSelf.blank with
    self := lineAddress i
    successor := fun k => if k = 0 then lineAddress (lineNext n i) else nullNode
    nofinger := true }

/-- The ring of the nodes that are numbered from `0` up to `n`. -/
def lineRing (n : ℕ) : Overlay where
  node i := if i.toNat < n then some (lineNode n i) else none
  self_id := by
    intro i s hs
    split_ifs at hs
    cases hs
    rfl

theorem lineRing_node_eq_some {n : ℕ} {i : HashType} {s : NodeSelf} :
  (lineRing n).node i = some s ↔ i.toNat < n ∧ s = lineNode n i
  := by
  simp only [lineRing, Option.ite_none_right_eq_some, Option.some.injEq]
  exact and_congr_right fun _ => eq_comm

/-- A node of the ring has accepted a connection. -/
theorem exists_accepted {n : ℕ} {i : HashType} (hi : i.toNat < n) :
  ∃ p ∈ (lineRing n).processes i, Accepted p 0 0 ∧ p.node = lineNode n i
    ∧ p.net.Numbered ∧ (∀ k, p.net.outcome k = .fine)
    ∧ ∀ j, j ≠ 0 → (p.net.connections j).bev = none
  := by
  let boot := Process.boot (lineNode n i) fun _ => .fine
  have hslot : netEmptyConnectionSlot boot.net = some 0 := netEmptyConnectionSlot_boot _ _
  have hpeer : (1 : UInt32) ≠ 0 := by decide
  have hbevNew : (boot.net.outcome boot.net.calls).bevNew = true := rfl
  have hmalloc : (boot.net.outcome boot.net.calls).malloc = true := rfl
  have hoccur : boot.occur (.accept 1) = { boot with
      net := listenEvtCb boot.net 1 (incomingConnection .incomingReadCb .incomingEventCb .self) } :=
    Process.occur_of_running rfl _
  rw [listenEvtCb_of_slot hslot, if_pos hbevNew, if_pos hmalloc] at hoccur
  refine ⟨boot.occur (.accept 1), ?_, accepted_of_accept rfl hslot hbevNew hmalloc hpeer, ?_, ?_,
    ?_, ?_⟩
  · exact Overlay.occur_mem_processes
      (Overlay.boot_mem_processes (lineRing_node_eq_some.mpr ⟨hi, rfl⟩) _) _
  · rw [hoccur]
    rfl
  · exact (occur_happens boot (.accept 1)).net.numbered (numbered_boot _ _)
  · intro k
    rw [hoccur]
    rfl
  · intro j hj
    rw [hoccur]
    dsimp only
    rw [Function.update_of_ne hj]
    rfl

section

variable {n : ℕ} (hn : n < 2 ^ 32)

include hn

theorem toNat_lineNext {i : HashType} (hi : i.toNat + 1 < n) :
  (lineNext n i).toNat = i.toNat + 1
  := by
  rw [lineNext, if_pos hi, UInt32.toNat_add, UInt32.toNat_one]
  omega

theorem lineNext_lt {i : HashType} (hi : i.toNat < n) :
  (lineNext n i).toNat < n
  := by
  by_cases hlast : i.toNat + 1 < n
  · rw [toNat_lineNext hn hlast]
    exact hlast
  · rw [lineNext, if_neg hlast]
    exact Nat.zero_lt_of_lt hi

theorem alive_lineNode {i : HashType} (hi : i.toNat < n) :
  (lineNode n i).Alive 0
  := by
  have hlt := lineNext_lt hn hi
  intro hzero
  have hnat := congrArg UInt32.toNat hzero
  simp only [lineNode, lineAddress, if_true, UInt32.toNat_add, UInt32.toNat_one, UInt32.toNat_zero]
    at hnat
  omega

theorem firstSucc_lineNode {i : HashType} (hi : i.toNat < n) :
  (lineNode n i).firstSucc = lineAddress (lineNext n i)
  := firstSucc_of_alive_zero (alive_lineNode hn hi)

theorem next_lineNode {i : HashType} (hi : i.toNat < n) :
  Circle.Next (lineRing n).members i (lineNext n i)
  := by
  constructor
  · exact ⟨_, lineRing_node_eq_some.mpr ⟨lineNext_lt hn hi, rfl⟩⟩
  · rintro x ⟨s, hs⟩ hx
    have hxn := (lineRing_node_eq_some.mp hs).1
    have hnext : i.toNat + 1 < n ∧ (lineNext n i).toNat = i.toNat + 1
        ∨ i.toNat + 1 = n ∧ (lineNext n i).toNat = 0 := by
      by_cases hlast : i.toNat + 1 < n
      · exact Or.inl ⟨hlast, toNat_lineNext hn hlast⟩
      · right
        rw [lineNext, if_neg hlast]
        exact ⟨by omega, rfl⟩
    have h₁ := Circle.clockwise_cases i (lineNext n i)
    have h₂ := Circle.clockwise_cases i x
    simp only [position_val, UInt32.size] at h₁ h₂
    rw [ne_eq, ← UInt32.toNat_inj] at hx ⊢
    omega

theorem stable_lineRing :
  (lineRing n).Stable
  := by
  constructor
  · intro i s hs
    obtain ⟨hi, rfl⟩ := lineRing_node_eq_some.mp hs
    rw [nodeFirstAliveSucc_of_alive_zero (alive_lineNode hn hi)]
    decide
  · intro i s hs
    obtain ⟨hi, rfl⟩ := lineRing_node_eq_some.mp hs
    rw [firstSucc_lineNode hn hi]
    exact next_lineNode hn hi
  · intro i s hs k
    obtain ⟨-, rfl⟩ := lineRing_node_eq_some.mp hs
    left
    left
    rfl

/-- A node knows what the next one is the answer to. -/
theorem knows_lineNode_iff {i id : HashType} (hi : i.toNat < id.toNat) (hid : id.toNat < n) :
  (lineNode n i).Knows id ↔ id.toNat = i.toNat + 1
  := by
  have hnext := toNat_lineNext hn (i := i) (by omega)
  have h₁ := Circle.clockwise_cases i (lineNext n i)
  have h₂ := Circle.clockwise_cases i id
  simp only [position_val, UInt32.size] at h₁ h₂
  have hself : (lineNode n i).self.id = i := rfl
  have hsucc : (lineNode n i).firstSucc.id = lineNext n i := by
    rw [firstSucc_lineNode hn (by omega)]
    rfl
  rw [NodeSelf.Knows, NodeSelf.Answers, hself, hsucc, nodeIdInRange_iff, ← UInt32.toNat_inj,
    ← UInt32.toNat_inj]
  omega

theorem nodeClosestPrecedingNode_lineNode {i : HashType} (hi : i.toNat < n) (id : HashType) :
  nodeClosestPrecedingNode (lineNode n i) id = lineAddress (lineNext n i)
  := by
  rcases nodeClosestPrecedingNode_cases (lineNode n i) id with hfinger | hsucc
  · obtain ⟨⟨k, hk⟩, hnull, -⟩ := closestFinger_spec hfinger
    rw [← hk] at hnull
    exact absurd (Or.inl rfl) hnull
  · rw [hsucc, firstSucc_lineNode hn hi]

/-- A node that a lookup comes to on the ring, with `k` nodes between it and the identifier,
replies after `k` forwards. -/
theorem exists_repliesAfter {id : HashType} (hid : id.toNat < n) {k : ℕ} {i : HashType}
    (hk : i.toNat + k + 1 = id.toNat) :
  ∃ reply, RepliesAfter (lineRing n).processes id i k reply
  := by
  induction k generalizing i with
  | zero =>
    have hi : i.toNat < n := by omega
    obtain ⟨p, hp, haccepted, hnode, -⟩ := exists_accepted hi
    have hknows : p.node.Knows id := by
      rw [hnode, knows_lineNode_iff hn (by omega) hid]
      omega
    obtain ⟨b, hconn, -⟩ := haccepted.bev
    obtain ⟨q, hqnode, hqnet, -, hdeliver⟩ := deliver_findSuccessor haccepted hconn.bev id
    have hbev : (q.net.connections 0).bev = some { b with input := [] } := by simp [hqnet]
    obtain ⟨m, rest, hwritten⟩ := nodeFindSuccessor_answerTo (s := 0) (hqnode ▸ hknows) hbev
    have hwrote : Wrote p (p.deliver 0 0 [(Request.findSuccessor id).wire]) 0 0
        (successorReply m 1 ++ rest) := by
      rw [hdeliver]
      exact ⟨b, _, hconn.bev, hconn.serial, hwritten, rfl⟩
    exact ⟨_, .known hp haccepted hknows hwrote⟩
  | succ k ih =>
    have hi : i.toNat < n := by omega
    have hnext := toNat_lineNext hn (i := i) (by omega)
    obtain ⟨answer, hanswer⟩ := ih (i := lineNext n i) (by omega)
    obtain ⟨m, rest, rfl⟩ := hanswer.eq
    obtain ⟨p, hp, haccepted, hnode, hnum, hfine, hempty⟩ := exists_accepted hi
    have hknows : ¬ p.node.Knows id := by
      rw [hnode, knows_lineNode_iff hn (by omega) hid]
      omega
    obtain ⟨b, hconn, -⟩ := haccepted.bev
    obtain ⟨q, hqnode, hqnet, hqnum, hdeliver⟩ := deliver_findSuccessor haccepted hconn.bev id
    have hbev : (q.net.connections 0).bev = some { b with input := [] } := by simp [hqnet]
    have hqfine : ∀ k, q.net.outcome k = .fine := by
      rw [hqnet]
      exact hfine
    have hslot : netEmptyConnectionSlot q.net = some 1 := by
      apply netEmptyConnectionSlot_one hbev
      simp [hqnet, hempty 1 (by decide)]
    obtain ⟨hwaits, hother⟩ := awaitsNode_nodeFindSuccessor (by rw [hqnet]; exact hconn.running)
      (hqnum hnum) hqfine hslot (hqnode ▸ hknows) (answerTo 0 0)
    have hr : p.deliver 0 0 [(Request.findSuccessor id).wire] ∈ (lineRing n).processes i := by
      rw [deliver_eq_occur hconn]
      exact Overlay.occur_mem_processes hp _
    rw [← hdeliver] at hwaits hother
    have hbev' := (hother 0 (by decide)).trans hbev
    have hwrote := wrote_answer hwaits rfl (by decide) hbev' hconn.serial m
      (Int16.ofNat (k + 1)) rest
    refine ⟨_, .forwarded hp haccepted hknows hwaits rfl hr hwaits ?_ hwrote⟩
    rw [hnode, nodeClosestPrecedingNode_lineNode hn hi]
    exact hanswer

/-- On the ring, a lookup is forwarded once for every node between the one it starts at and the
identifier. -/
theorem exists_handsAfter {id : HashType} (hid : id.toNat < n) {k : ℕ} {i : HashType}
    (hk : i.toNat + k + 1 = id.toNat) (arg : ℕ) :
  ∃ m hops, HandsAfter (lineRing n).processes id (.app arg) i k m hops
  := by
  have hi : i.toNat < n := by omega
  let p := Process.boot (lineNode n i) fun _ => .fine
  have hp : p ∈ (lineRing n).processes i :=
    Overlay.boot_mem_processes (lineRing_node_eq_some.mpr ⟨hi, rfl⟩) _
  have hknows : p.node.Knows id ↔ id.toNat = i.toNat + 1 := knows_lineNode_iff hn (by omega) hid
  cases k with
  | zero =>
    have hans : p.node.Knows id := hknows.mpr (by omega)
    obtain ⟨m, es, hlog, hhanded, -⟩ := nodesHanded_nodeFindSuccessor hans (.app arg)
    exact ⟨m, 0, .known hp hans hlog hhanded⟩
  | succ k =>
    have hnext := toNat_lineNext hn (i := i) (by omega)
    obtain ⟨answer, hanswer⟩ := exists_repliesAfter hn hid (i := lineNext n i) (k := k) (by omega)
    obtain ⟨m, rest, rfl⟩ := hanswer.eq
    have hslot : netEmptyConnectionSlot p.net = some 0 := netEmptyConnectionSlot_boot _ _
    have hnot : ¬ p.node.Knows id := by
      rw [hknows]
      omega
    obtain ⟨hwaits, -⟩ := awaitsNode_nodeFindSuccessor (q := p) rfl (numbered_boot _ _)
      (fun _ => rfl) hslot hnot (.app arg)
    have hr : (nodeFindSuccessor p id (.app arg)).2 ∈ (lineRing n).processes i :=
      Overlay.occur_mem_processes hp (.findSuccessor id arg)
    obtain ⟨es, hlog, hhanded⟩ := deliver_answer_log hwaits m (Int16.ofNat (k + 1)) rest
    refine ⟨m, _, .forwarded hp (.inl ⟨hnot, rfl, rfl⟩) hwaits rfl hr hwaits ?_ hlog
      (hhanded ▸ List.mem_singleton_self _)⟩
    have hnode : p.node = lineNode n i := rfl
    rw [hnode, nodeClosestPrecedingNode_lineNode hn hi]
    exact hanswer

end

/-! ### The count -/

/-- What is handed to the callback of a lookup is the number of its forwards as a `short`, and
that number itself exactly when there are at most `32767`. -/
theorem lookup_hops {nodes : HashType → Set NodeProcess} {id : HashType} {cb : FoundCb}
    {i : HashType} {k : ℕ} {n : NodeInfo} {hops : Int16} (h : HandsAfter nodes id cb i k n hops) :
  hops = Int16.ofNat k ∧ (hops.toInt = k ↔ k ≤ 32767)
  := by
  refine ⟨h.hops_eq, ?_⟩
  rw [h.hops_eq]
  constructor
  · intro heq
    have hlt := Int.bmod_lt (x := k) (m := Int16.size) (by decide)
    rw [Int16.toInt_ofNat'] at heq
    rw [heq] at hlt
    have hsize : ((Int16.size : ℤ) + 1) / 2 = 32768 := by decide
    omega
  · intro hle
    exact Int16.toInt_ofNat_of_lt (Nat.lt_succ_of_le hle)

/-- On the ring of four nodes, a lookup that passes two nodes is found in two hops. -/
theorem lookup_hops_lineRing :
  ∃ n hops, HandsAfter (lineRing 4).processes 3 (.app 0) 0 2 n hops ∧ hops.toInt = 2
  := by
  have hn : 4 < 2 ^ 32 := by decide
  have hid : (3 : HashType).toNat < 4 := by decide
  have hk : (0 : HashType).toNat + 2 + 1 = (3 : HashType).toNat := by decide
  obtain ⟨n, hops, hhands⟩ := exists_handsAfter hn hid hk 0
  exact ⟨n, hops, hhands, (lookup_hops hhands).2.mpr (by decide)⟩

/-- A lookup that is forwarded `32768` times is found in `-32768` hops. -/
theorem lookup_hops_wraps :
  ¬ ∀ o : Overlay, o.Stable → (∀ i s, o.node i = some s → s.nofinger = true) →
      ∀ (id : HashType) (cb : FoundCb) (i : HashType) (k : ℕ) (n : NodeInfo) (hops : Int16),
        HandsAfter o.processes id cb i k n hops → hops.toInt = k
  := by
  intro hexact
  have hn : 32770 < 2 ^ 32 := by decide
  have hid : (32769 : HashType).toNat < 32770 := by decide
  have hk : (0 : HashType).toNat + 32768 + 1 = (32769 : HashType).toNat := by decide
  have hnofinger : ∀ i s, (lineRing 32770).node i = some s → s.nofinger = true := by
    intro i s hs
    obtain ⟨-, rfl⟩ := lineRing_node_eq_some.mp hs
    rfl
  obtain ⟨m, hops, hhands⟩ := exists_handsAfter hn hid hk 0
  have htoInt := hexact _ (stable_lineRing hn) hnofinger _ _ _ _ _ _ hhands
  rw [hhands.hops_eq] at htoInt
  exact absurd htoInt (by decide)
