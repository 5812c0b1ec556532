import LibDht.Protocol.FingerRound
import LibDht.Protocol.Rest
import LibDht.Ring.UpdatePass

/-!
# The protocol that the nodes carry out

The steps of a network run whole operations of the nodes. Here they are put in the terms of
the protocol: a message reaches a process, which changes at most one thing that it knows and
sends at most one message on; or a joined node starts something by itself; or a node asks to
join; or a message is lost. `Step.turn` says that in a network of which the invariant holds
the operations do nothing else.
-/

open Circle Function

/-! ### Messages that reach a process -/

/-- What a message does to the process `i` that it reaches: the state of the process before
and after, and the message that it sends on, if any. -/
inductive Receives (i : HashType) : Msg → Peer → Peer → Option Msg → Prop where
  | answer {s : NodeSelf} {id : HashType} {frames : List Frame} (hid : i ≠ id)
      (hans : s.Answers id) :
      Receives i (.succRequest i id frames) ⟨s, true⟩ ⟨s, true⟩
        (some (.succReply s.firstSucc 1 frames))
  | forward {s : NodeSelf} {id : HashType} {frames : List Frame} (hid : i ≠ id)
      (hans : ¬ s.Answers id) :
      Receives i (.succRequest i id frames) ⟨s, true⟩ ⟨s, true⟩
        (some (.succRequest (nodeClosestPrecedingNode s id).id id (⟨i, relay⟩ :: frames)))
  | relayed {s : NodeSelf} {n : NodeInfo} {hops : Int16} {f : Frame} {frames : List Frame} :
      Receives i (.succReply n hops (⟨i, relay⟩ :: f :: frames)) ⟨s, true⟩ ⟨s, true⟩
        (some (.succReply n (hops + 1) (f :: frames)))
  | joined {s : NodeSelf} {n : NodeInfo} {hops : Int16} {arg : ℕ} :
      Receives i (.succReply n hops [⟨i, .networkJoinSuccFound arg⟩]) ⟨s, false⟩
        ⟨s.setSuccessor 0 n, true⟩ none
  | entry {s : NodeSelf} {n : NodeInfo} {hops : Int16} {k : Fin numOfSuccs} (hk : k ≠ 0) :
      Receives i (.succReply n hops [⟨i, .updateSuccsFound k.val⟩]) ⟨s, true⟩
        ⟨{ s with successor := update s.successor k n }, true⟩
        (if k.val + 1 < numOfSuccs then
          some (.succRequest n.id (n.id + 1) [⟨i, .updateSuccsFound (k.val + 1)⟩])
        else none)
  | finger {s : NodeSelf} {n : NodeInfo} {hops : Int16} {k : Fin idBits} :
      Receives i (.succReply n hops [⟨i, .fingerUpdate k⟩]) ⟨s, true⟩
        ⟨(fingerUpdate (idle s) n k).node, true⟩ none
  | app {s : NodeSelf} {n : NodeInfo} {hops : Int16} {arg : ℕ} :
      Receives i (.succReply n hops [⟨i, .app arg⟩]) ⟨s, true⟩ ⟨s, true⟩ none
  | predRequest {s : NodeSelf} {f : Frame} (hops : Int16) :
      Receives i (.predRequest i f) ⟨s, true⟩ ⟨s, true⟩
        (some (.predReply (predAnswer s) hops f))
  | predReply {s : NodeSelf} {n : NodeInfo} {hops : Int16} :
      Receives i (.predReply n hops ⟨i, .stabilizeSpFound⟩) ⟨s, true⟩ ⟨adopted s n, true⟩
        (some (.notify (adopted s n).firstSucc.id i s.self.port))
  | notify {s : NodeSelf} {id : HashType} {port : UInt16} {ip : UInt32} (hip : ip ≠ 0) :
      Receives i (.notify i id port) ⟨s, true⟩
        ⟨nodeNotified s { id := id, IP := ip, port := port }, true⟩ none

section Operations

variable {i id : HashType} {s : NodeSelf}

/-- A node that is asked for another identifier than its own sends one message on. -/
theorem receives_succRequest (hself : s.self.id = i) (hid : i ≠ id) (frames : List Frame) :
  ∃ out, route i frames (nodeFindSuccessor (idle s) id relay).2.net.sent = [out]
    ∧ Receives i (.succRequest i id frames) ⟨s, true⟩
      ⟨(nodeFindSuccessor (idle s) id relay).2.node, true⟩ (some out)
  := by
  have hne : (idle s).node.self.id ≠ id := hself ▸ hid
  by_cases hans : s.Answers id
  · rw [nodeFindSuccessor_answer (p := idle s) relay hne hans]
    exact ⟨_, rfl, .answer hid hans⟩
  · obtain ⟨q, hnode, hnet, -, hq⟩ := nodeFindSuccessor_forward (p := idle s) relay hne hans
    rw [hq]
    refine ⟨.succRequest (nodeClosestPrecedingNode s id).id id (⟨i, relay⟩ :: frames), ?_, ?_⟩
    · simp only [nodeFindSuccessorRemote, Remote.findSuccessorRemote, hnet]
      rfl
    · rw [nodeFindSuccessorRemote_node, hnode]
      exact .forward hid hans

/-- A node that has found one for its successor array asks that one for the next, unless the
array is full. -/
theorem receives_entry {k : Fin numOfSuccs} (hk : k ≠ 0) {n : NodeInfo} (hn : n.IP ≠ 0)
    (hops : Int16) :
  let p := nodeFound (idle s) { cb := .updateSuccsFound k.val, node := n, hops := hops }
  ∃ out : Option Msg, route i [] p.net.sent = out.toList
    ∧ Receives i (.succReply n hops [⟨i, .updateSuccsFound k.val⟩]) ⟨s, true⟩ ⟨p.node, true⟩ out
  := by
  obtain ⟨hnode, hsent⟩ := nodeFound_updateSuccsFound (idle s) hn k hops
  dsimp only
  rw [hnode, hsent, idle_node, NodeSelf.setSuccessor_coe]
  refine ⟨_, ?_, .entry hk⟩
  split_ifs
  · rfl
  · rfl

/-- A process that has come from the state `s` by looking for fingers: nothing but the fingers
has changed, and all that was sent are lookups for them. -/
structure FixesFingers (s : NodeSelf) (p : Process Outbox) : Prop where
  node : ∃ fingers, p.node = { s with fingerTable := fingers }
  sent : ∀ a ∈ p.net.sent, ∃ dest k, k ≠ 0
    ∧ a = .findSuccessor dest (fingerStart s.self.id k) (.fingerUpdate k)

theorem FixesFingers.fix_a_finger {p : Process Outbox} (h : FixesFingers s p) (k : Fin idBits) :
  FixesFingers s (nodeFixAFinger p k.val)
  := by
  by_cases hk : k = 0
  · rw [hk]
    exact h
  · obtain ⟨fingers, hfingers⟩ := h.node
    have hself : p.node.self = s.self := by rw [hfingers]
    have hne : p.node.self.id ≠ fingerStart p.node.self.id k := by
      intro heq
      have hdist := clockwise_fingerStart p.node.self.id k
      rw [← heq, clockwise_self] at hdist
      exact (Nat.two_pow_pos _).ne hdist
    rw [nodeFixAFinger_coe p hk]
    by_cases hans : p.node.Answers (fingerStart p.node.self.id k)
    · rw [nodeFindSuccessor_answer _ hne hans]
      refine ⟨⟨(fingerUpdate p p.node.firstSucc k).node.fingerTable, ?_⟩, h.sent⟩
      simp only [nodeFound, fingerUpdate, Process.emit_node, Process.touch_node,
        Process.lock_node, Process.unlock_node, hfingers]
    · obtain ⟨q, hq, hnet, -, hfind⟩ := nodeFindSuccessor_forward (.fingerUpdate k) hne hans
      rw [hfind]
      refine ⟨⟨fingers, hq.trans hfingers⟩, ?_⟩
      intro a ha
      simp only [nodeFindSuccessorRemote, Remote.findSuccessorRemote, hnet, List.mem_append,
        List.mem_singleton] at ha
      rcases ha with ha | rfl
      · exact h.sent a ha
      · exact ⟨_, k, hk, by rw [hself]⟩

theorem fixesFingers (s : NodeSelf) :
  FixesFingers s (nodeFixFingers (idle s))
  := by
  have hfold : ∀ n ≤ idBits, FixesFingers s
      ((List.range n).foldl (fun p (fnum : ℕ) => nodeFixAFinger p fnum) (idle s)) := by
    intro n hn
    induction n with
    | zero => exact ⟨⟨s.fingerTable, rfl⟩, fun a ha => by cases ha⟩
    | succ n ih =>
      rw [List.range_succ, List.foldl_append]
      exact (ih (Nat.le_of_succ_le hn)).fix_a_finger ⟨n, hn⟩
  exact hfold idBits le_rfl

/-- What goes out in a round are lookups for fingers. -/
theorem eq_of_mem_route_fixFingers {m : Msg}
    (hm : m ∈ route i [] (nodeFixFingers (idle s)).net.sent) :
  ∃ dest k, k ≠ 0 ∧ m = .succRequest dest (fingerStart s.self.id k) [⟨i, .fingerUpdate k⟩]
  := by
  rcases List.mem_append.mp hm with hm | hm
  · obtain ⟨a, ha, hreq⟩ := List.mem_filterMap.mp hm
    obtain ⟨dest, k, hk, rfl⟩ := (fixesFingers s).sent a ha
    cases hreq
    exact ⟨_, k, hk, rfl⟩
  · obtain ⟨a, ha, hans⟩ := List.mem_filterMap.mp (List.mem_of_mem_take hm)
    obtain ⟨dest, k, -, rfl⟩ := (fixesFingers s).sent a ha
    cases hans

end Operations

/-! ### What starts at a node -/

/-- What a joined node `i` starts by itself: its state before and after, and what it sends. -/
inductive Starts (i : HashType) (s : NodeSelf) : NodeSelf → List Msg → Prop where
  | stabilise : Starts i s s [.predRequest s.firstSucc.id ⟨i, .stabilizeSpFound⟩]
  | updateSuccs {k : Fin numOfSuccs} (hk : nodeFirstAliveSucc s = k.val) : Starts i s s
      [.succRequest (s.successor k).id ((s.successor k).id + 1) [⟨i, .updateSuccsFound (k.val + 1)⟩]]
  | fixFingers : Starts i s (nodeFixFingers (idle s)).node
      (route i [] (nodeFixFingers (idle s)).net.sent)
  | lookup {id : HashType} {arg : ℕ} (hid : i ≠ id) (hans : ¬ s.Answers id) :
      Starts i s s [.succRequest (nodeClosestPrecedingNode s id).id id [⟨i, .app arg⟩]]
  | answered : Starts i s s []

section Operations

variable {i : HashType} {s : NodeSelf}

/-- What a timer starts, when some successor entry is in use. -/
theorem Timer.starts {k : Fin numOfSuccs} (hk : nodeFirstAliveSucc s = k.val) (t : Timer) :
  Starts i s (t.fire (idle s)).node (route i [] (t.fire (idle s)).net.sent)
  := by
  cases t with
  | stabilise => exact .stabilise
  | updateSuccs =>
    have hsent := nodeUpdateSuccs_sent hk (nodeFirstAliveSucc_eq_coe_iff.mp hk).1
    have hnode : (nodeUpdateSuccs (idle s)).node = s := nodeUpdateSucc_node _ _
    simp only [Timer.fire, hnode, hsent]
    exact .updateSuccs hk
  | fixFingers => exact .fixFingers

/-- What a lookup of the application starts. -/
theorem starts_lookup (hself : s.self.id = i) (id : HashType) (arg : ℕ) :
  let p := (nodeFindSuccessor (idle s) id (.app arg)).2
  Starts i s p.node (route i [] p.net.sent)
  := by
  by_cases hid : i = id
  · have hfound := nodeFindSuccessor_self (p := idle s) (.app arg) (hself.trans hid)
    dsimp only at hfound ⊢
    rw [hfound]
    exact .answered
  · have hne : (idle s).node.self.id ≠ id := hself ▸ hid
    by_cases hans : s.Answers id
    · rw [nodeFindSuccessor_answer (p := idle s) (.app arg) hne hans]
      exact .answered
    · obtain ⟨q, hnode, hnet, -, hq⟩ := nodeFindSuccessor_forward (p := idle s) (.app arg) hne hans
      rw [hq]
      dsimp only
      rw [nodeFindSuccessorRemote_node, hnode]
      simp only [nodeFindSuccessorRemote, Remote.findSuccessorRemote, hnet]
      exact .lookup hid hans

/-- A reply to a lookup, at a node that forwarded the lookup or started it. -/
theorem Stack.receives {J : Set HashType} {id : HashType} {f : Frame} {frames : List Frame}
    (h : Stack J id (f :: frames)) {b : Bool} (hjoined : f.owner ∈ J → b = true)
    (hjoins : frames = [] → Net.joins f.cb = true → b = false) {n : NodeInfo} (hn : n.IP ≠ 0)
    (hops : Int16) :
  let p := nodeFound (idle s) { cb := f.cb, node := n, hops := hops }
  ∃ out : Option Msg, route f.owner frames p.net.sent = out.toList
    ∧ Receives f.owner (.succReply n hops (f :: frames)) ⟨s, b⟩ ⟨p.node, b || Net.joins f.cb⟩ out
  := by
  obtain ⟨owner, cb⟩ := f
  cases frames with
  | cons g frames =>
    obtain ⟨hcb, howner, -⟩ := h
    dsimp only at hcb howner hjoined
    subst hcb
    obtain rfl := hjoined howner
    exact ⟨_, rfl, .relayed⟩
  | nil =>
    dsimp only at hjoined hjoins
    cases cb with
    | networkJoinSuccFound arg =>
      obtain rfl := hjoins rfl rfl
      exact ⟨none, rfl, .joined⟩
    | stabilizeSpFound => exact absurd h not_false
    | successorFoundForRemote d => exact absurd h not_false
    | freed => exact absurd h not_false
    | updateSuccsFound k =>
      obtain ⟨howner, hk, hk'⟩ := h
      obtain rfl := hjoined howner
      obtain ⟨j, rfl⟩ : ∃ j : Fin numOfSuccs, k = j.val := ⟨⟨k.toNat, by omega⟩, by simp; omega⟩
      have hj : j ≠ 0 := by
        rintro rfl
        simp at hk
      exact receives_entry hj hn hops
    | fingerUpdate k =>
      obtain rfl := hjoined h
      exact ⟨none, rfl, .finger⟩
    | app arg =>
      obtain rfl := hjoined h
      exact ⟨none, rfl, .app⟩

end Operations

namespace Net

variable {c : HashType} {net net' : Net} {m : Msg}

/-- The network after the message `m` has reached its process. -/
inductive Received (m : Msg) (net : Net) : Net → Prop where
  | intro {i : HashType} {peer peer' : Peer} {out : Option Msg} {before after : List Msg}
      (hm : net.msgs = before ++ m :: after) (hi : net.peer i = some peer)
      (h : Receives i m peer peer' out) :
      Received m net
        { peer := update net.peer i (some peer'), msgs := before ++ after ++ out.toList }

/-- The network after something has happened in it. -/
inductive Turn (net : Net) : Net → Prop where
  | received {m : Msg} {net' : Net} (h : Received m net net') : Turn net net'
  | started {i : HashType} {s s' : NodeSelf} {sent : List Msg}
      (hi : net.peer i = some ⟨s, true⟩) (h : Starts i s s' sent) :
      Turn net { peer := update net.peer i (some ⟨s', true⟩), msgs := net.msgs ++ sent }
  | asked {i : HashType} {s : NodeSelf} {contact : NodeInfo} {arg : ℕ} (hi : net.peer i = none)
      (hc : contact.id ∈ net.Joined) :
      Turn net
        { peer := update net.peer i (some ⟨s, false⟩)
          msgs := net.msgs ++ [.succRequest contact.id i [⟨i, .networkJoinSuccFound arg⟩]] }
  | lost {m : Msg} {before after : List Msg} (hm : net.msgs = before ++ m :: after) :
      Turn net { net with msgs := before ++ after }

/-- The message `m` arrives. -/
inductive Arrives : Msg → Net → Net → Prop where
  | succRequest {net : Net} {dest id : HashType} {frames : List Frame} {s : NodeSelf} {b : Bool}
      {before after : List Msg} (hm : net.msgs = before ++ .succRequest dest id frames :: after)
      (hd : net.peer dest = some { node := s, joined := b }) (hne : dest ≠ id) :
      Arrives (.succRequest dest id frames) net
        ({ net with msgs := before ++ after }.act dest b frames
          (nodeFindSuccessor (idle s) id relay).2)
  | succReply {net : Net} {node : NodeInfo} {hops : Int16} {f : Frame} {frames : List Frame}
      {s : NodeSelf} {b : Bool} {before after : List Msg}
      (hm : net.msgs = before ++ .succReply node hops (f :: frames) :: after)
      (hd : net.peer f.owner = some { node := s, joined := b }) :
      Arrives (.succReply node hops (f :: frames)) net
        ({ net with msgs := before ++ after }.act f.owner (b || joins f.cb) frames
          (nodeFound (idle s) { cb := f.cb, node := node, hops := hops }))
  | predRequest {net : Net} {dest : HashType} {f : Frame} {s : NodeSelf} {b : Bool}
      {before after : List Msg} (hops : Int16)
      (hm : net.msgs = before ++ .predRequest dest f :: after)
      (hd : net.peer dest = some { node := s, joined := b }) :
      Arrives (.predRequest dest f) net
        { net with msgs := before ++ after ++ [.predReply (predAnswer s) hops f] }
  | predReply {net : Net} {node : NodeInfo} {hops : Int16} {f : Frame} {s : NodeSelf} {b : Bool}
      {before after : List Msg} (hm : net.msgs = before ++ .predReply node hops f :: after)
      (hd : net.peer f.owner = some { node := s, joined := b }) :
      Arrives (.predReply node hops f) net
        ({ net with msgs := before ++ after }.act f.owner b []
          (nodeFound (idle s) { cb := f.cb, node := node, hops := hops }))
  | notify {net : Net} {dest id : HashType} {port : UInt16} {s : NodeSelf} {b : Bool}
      {before after : List Msg} (ip : UInt32) (hip : ip ≠ 0)
      (hm : net.msgs = before ++ .notify dest id port :: after)
      (hd : net.peer dest = some { node := s, joined := b }) :
      Arrives (.notify dest id port) net
        ({ net with msgs := before ++ after }.act dest b []
          (idle (nodeNotified s { id := id, IP := ip, port := port })))

/-- The timer `t` of the joined node `i` fires. -/
def Fires (t : Timer) (i : HashType) (net net' : Net) : Prop :=
  ∃ s, net.peer i = some ⟨s, true⟩ ∧ net' = net.act i true [] (t.fire (idle s))

theorem Arrives.step (h : Arrives m net net') :
  Step net net'
  := by
  cases h with
  | succRequest hm hd hne => exact .succRequest hm hd hne
  | succReply hm hd => exact .succReply hm hd
  | predRequest hops hm hd => exact .predRequest hops hm hd
  | predReply hm hd => exact .predReply hm hd
  | notify ip hip hm hd => exact .notify ip hip hm hd

theorem Fires.step {t : Timer} {i : HashType} (h : Fires t i net net') :
  Step net net'
  := by
  obtain ⟨s, hi, rfl⟩ := h
  exact .timer t hi

/-- An operation that does what the message does, and sends what goes on. -/
theorem Received.of_act {i : HashType} {peer : Peer} {b : Bool} {frames : List Frame}
    {p : Process Outbox} {out : Option Msg} {before after : List Msg}
    (hm : net.msgs = before ++ m :: after) (hi : net.peer i = some peer)
    (h : Receives i m peer ⟨p.node, b⟩ out) (hroute : route i frames p.net.sent = out.toList) :
  Received m net ({ net with msgs := before ++ after }.act i b frames p)
  := by
  rw [act, hroute]
  exact .intro hm hi h

/-- Who gets the message is ready for it: it has joined, unless it joins with the message. -/
def Expected (net : Net) : Msg → Prop
  | .succRequest dest _ _ => ∀ s b, net.peer dest = some ⟨s, b⟩ → b = true
  | .succReply n _ frames => n.IP ≠ 0 ∧ ∀ f rest s b, frames = f :: rest →
      net.peer f.owner = some ⟨s, b⟩ → ∃ J id, Stack J id frames ∧ (f.owner ∈ J → b = true)
        ∧ (rest = [] → joins f.cb = true → b = false)
  | .predRequest dest _ => ∀ s b, net.peer dest = some ⟨s, b⟩ → b = true
  | .predReply _ _ f => f.cb = .stabilizeSpFound ∧ ∀ s b, net.peer f.owner = some ⟨s, b⟩ → b = true
  | .notify dest _ _ => ∀ s b, net.peer dest = some ⟨s, b⟩ → b = true

/-- Every node knows its own identifier, and gets the messages that it is ready for. -/
structure Orderly (net : Net) : Prop where
  self_id : ∀ {i peer}, net.peer i = some peer → peer.node.self.id = i
  msg : ∀ m ∈ net.msgs, Expected net m

theorem Invariant.orderly (h : Invariant c net) :
  Orderly net
  := by
  refine ⟨fun hi => (h.peer hi).self_id, ?_⟩
  intro m hm
  have hok := h.msg m hm
  cases m with
  | succRequest dest id frames => exact fun s b hd => joined_of_mem hok.1 hd
  | succReply n hops frames =>
    obtain ⟨hnode, ⟨id, hstack⟩, -⟩ := hok
    refine ⟨hnode.IP_ne, ?_⟩
    rintro f rest s b rfl hd
    refine ⟨net.Joined, id, hstack, fun howner => joined_of_mem howner hd, ?_⟩
    rintro rfl hcb
    have hjoiner : joinerOf [f] = some f.owner := if_pos hcb
    obtain ⟨s', hs'⟩ := h.joining f.owner (List.mem_filterMap.mpr ⟨_, hm, hjoiner⟩)
    rw [hd] at hs'
    cases hs'
    rfl
  | predRequest dest f => exact fun s b hd => joined_of_mem hok.1 hd
  | predReply n hops f => exact ⟨hok.2.1, fun s b hd => joined_of_mem hok.1 hd⟩
  | notify dest id port => exact fun s b hd => joined_of_mem hok.1 hd

/-- A message that arrives does what the protocol says. -/
theorem Arrives.received (ha : Arrives m net net') (h : Orderly net) :
  Received m net net'
  := by
  have hmsg : m ∈ net.msgs → Expected net m := h.msg m
  cases ha with
  | @succRequest _ dest id frames s b before after hm hd hne =>
    obtain rfl := hmsg (hm ▸ List.mem_append_right _ List.mem_cons_self) s b hd
    obtain ⟨out, hroute, hrec⟩ := receives_succRequest (h.self_id hd) hne frames
    exact .of_act hm hd hrec hroute
  | @succReply _ node hops f frames s b before after hm hd =>
    obtain ⟨hIP, hframes⟩ := hmsg (hm ▸ List.mem_append_right _ List.mem_cons_self)
    obtain ⟨J, id, hstack, hjoined, hjoins⟩ := hframes f frames s b rfl hd
    obtain ⟨out, hroute, hrec⟩ := hstack.receives (s := s) hjoined hjoins hIP hops
    exact .of_act hm hd hrec hroute
  | @predRequest _ dest f s b before after hops hm hd =>
    obtain rfl := hmsg (hm ▸ List.mem_append_right _ List.mem_cons_self) s b hd
    have hrec := Received.intro hm hd (.predRequest (f := f) hops)
    rw [← hd, update_eq_self] at hrec
    exact hrec
  | @predReply _ node hops f s b before after hm hd =>
    obtain ⟨hcb, hjoined⟩ := hmsg (hm ▸ List.mem_append_right _ List.mem_cons_self)
    obtain ⟨owner, cb⟩ := f
    dsimp only at hcb hd
    subst hcb
    obtain rfl := hjoined s b hd
    obtain ⟨hnode, hsent⟩ := nodeFound_stabilizeSpFound s node hops
    have hrec : Receives owner (.predReply node hops ⟨owner, .stabilizeSpFound⟩) ⟨s, true⟩
        ⟨(nodeFound (idle s) { cb := .stabilizeSpFound, node := node, hops := hops }).node, true⟩
        (some (.notify (adopted s node).firstSucc.id owner s.self.port)) := by
      rw [hnode]
      exact .predReply
    apply Received.of_act hm hd hrec
    rw [hsent, ← h.self_id hd]
    rfl
  | @notify _ dest id port s b before after ip hip hm hd =>
    obtain rfl := hmsg (hm ▸ List.mem_append_right _ List.mem_cons_self) s b hd
    exact .of_act hm hd (.notify hip) rfl

/-- Every step of a network of which the invariant holds is one of the protocol. -/
theorem Step.turn (hs : Step net net') (h : Invariant c net) :
  Turn net net'
  := by
  cases hs with
  | timer t hi => exact .started hi (t.starts (k := 0) (h.running hi).firstAlive)
  | lookup id arg hi => exact .started hi (starts_lookup (h.peer hi).self_id id arg)
  | join mem port contact arg hi hc hf => exact .asked hi hc
  | succRequest hm hd hne => exact .received ((Arrives.succRequest hm hd hne).received h.orderly)
  | succReply hm hd => exact .received ((Arrives.succReply hm hd).received h.orderly)
  | predRequest hops hm hd => exact .received ((Arrives.predRequest hops hm hd).received h.orderly)
  | predReply hm hd => exact .received ((Arrives.predReply hm hd).received h.orderly)
  | notify ip hip hm hd => exact .received ((Arrives.notify ip hip hm hd).received h.orderly)
  | lose hm => exact .lost hm

end Net

/-! ### What a turn keeps -/

section Receives

variable {i : HashType} {m : Msg} {peer peer' : Peer} {out : Option Msg}

/-- Nothing but a timer makes a node ask for a predecessor. -/
theorem Receives.ne_predRequest (h : Receives i m peer peer' out) (dest : HashType) (f : Frame) :
  out ≠ some (.predRequest dest f)
  := by
  rintro rfl
  generalize ho : some (Msg.predRequest dest f) = o at h
  cases h with
  | entry hk =>
    split_ifs at ho
    cases ho
  | _ => cases ho

/-- A node answers with its predecessor. -/
theorem Receives.predReply_out {n : NodeInfo} {hops : Int16} {f : Frame}
    (h : Receives i m peer peer' (some (.predReply n hops f))) :
  ∃ s, peer = ⟨s, true⟩ ∧ m = .predRequest i f ∧ n = predAnswer s
  := by
  generalize ho : some (Msg.predReply n hops f) = o at h
  cases h with
  | predRequest =>
    cases ho
    exact ⟨_, rfl, rfl, rfl⟩
  | entry hk =>
    split_ifs at ho
    cases ho
  | _ => cases ho

/-- A node notifies its first successor when it is answered. -/
theorem Receives.notify_out {dest id : HashType} {port : UInt16}
    (h : Receives i m peer peer' (some (.notify dest id port))) :
  ∃ s n hops, peer = ⟨s, true⟩ ∧ m = .predReply n hops ⟨i, .stabilizeSpFound⟩
    ∧ dest = (adopted s n).firstSucc.id ∧ id = i
  := by
  generalize ho : some (Msg.notify dest id port) = o at h
  cases h with
  | predReply =>
    cases ho
    exact ⟨_, _, _, rfl, rfl, rfl, rfl⟩
  | entry hk =>
    split_ifs at ho
    cases ho
  | _ => cases ho

/-- A node that has joined stays joined. -/
theorem Receives.joined_mono (h : Receives i m peer peer' out) (hj : peer.joined = true) :
  peer'.joined = true
  := by
  cases h with
  | joined => rfl
  | _ => exact hj

end Receives

namespace Net

variable {c : HashType} {net net' : Net} {m : Msg}

theorem Received.joined_subset (h : Received m net net') :
  net.Joined ⊆ net'.Joined
  := by
  obtain @⟨i, peer, peer', out, before, after, hm, hi, hrec⟩ := h
  rintro j ⟨s, hs⟩
  by_cases hji : j = i
  · subst hji
    rw [hi] at hs
    cases hs
    have hjoined := hrec.joined_mono rfl
    exact ⟨peer'.node, (update_self ..).trans (by rw [← hjoined])⟩
  · exact ⟨s, (update_of_ne hji _ _).trans hs⟩

/-- Who has joined stays joined. -/
theorem Turn.joined_subset (h : Turn net net') :
  net.Joined ⊆ net'.Joined
  := by
  cases h with
  | received h => exact h.joined_subset
  | @started i s s' sent hi h =>
    rintro j ⟨r, hr⟩
    by_cases hji : j = i
    · exact ⟨s', hji ▸ update_self ..⟩
    · exact ⟨r, (update_of_ne hji _ _).trans hr⟩
  | @asked i s contact arg hi hc =>
    rintro j ⟨r, hr⟩
    have hji : j ≠ i := by
      rintro rfl
      rw [hi] at hr
      cases hr
    exact ⟨r, (update_of_ne hji _ _).trans hr⟩
  | lost hm => exact subset_rfl

/-- A lookup is forwarded to a node that is closer to the identifier. -/
theorem Invariant.closer (h : Invariant c net) {i id : HashType} {s : NodeSelf}
    (hi : net.peer i = some ⟨s, true⟩) (hans : ¬ s.Answers id) :
  clockwise (nodeClosestPrecedingNode s id).id id < clockwise i id
  := by
  have hself : s.self.id = i := (h.peer hi).self_id
  rw [← hself]
  apply nodeClosestPrecedingNode_closer _ hans
  intro n hn
  obtain ⟨⟨k, rfl⟩, hnull, -⟩ := closestFinger_spec hn
  rw [hself]
  exact (((h.peer hi).finger k).resolve_left hnull).2

theorem Arrives.mem (h : Arrives m net net') :
  m ∈ net.msgs
  := by
  cases h with
  | succRequest hm hd hne => exact hm ▸ List.mem_append_right _ List.mem_cons_self
  | succReply hm hd => exact hm ▸ List.mem_append_right _ List.mem_cons_self
  | predRequest hops hm hd => exact hm ▸ List.mem_append_right _ List.mem_cons_self
  | predReply hm hd => exact hm ▸ List.mem_append_right _ List.mem_cons_self
  | notify ip hip hm hd => exact hm ▸ List.mem_append_right _ List.mem_cons_self

/-- What a message does when it arrives: the state of its process is replaced, and what it
brings about is in flight. -/
theorem Received.exists (h : Received m net net') :
  ∃ i peer peer' out, net.peer i = some peer ∧ Receives i m peer peer' out
    ∧ net'.peer = update net.peer i (some peer') ∧ ∀ m' ∈ out, m' ∈ net'.msgs
  := by
  obtain @⟨i, peer, peer', out, before, after, hm, hi, hrec⟩ := h
  refine ⟨i, peer, peer', out, hi, hrec, rfl, ?_⟩
  intro m' hm'
  exact List.mem_append_right _ (Option.mem_toList.mpr hm')

/-! ### What a turn does to a joined node -/

end Net

/-- What a turn may do to the state of a joined node, given the messages in flight before. -/
inductive Change (msgs : List Msg) (i : HashType) (s : NodeSelf) : NodeSelf → Prop where
  | kept : Change msgs i s s
  | entry {n : NodeInfo} {hops : Int16} {k : Fin numOfSuccs} (hk : k ≠ 0)
      (hm : .succReply n hops [⟨i, .updateSuccsFound k.val⟩] ∈ msgs) :
      Change msgs i s { s with successor := update s.successor k n }
  | finger {n : NodeInfo} {hops : Int16} {k : Fin idBits}
      (hm : .succReply n hops [⟨i, .fingerUpdate k⟩] ∈ msgs) :
      Change msgs i s (fingerUpdate (idle s) n k).node
  | fixFingers : Change msgs i s (nodeFixFingers (idle s)).node
  | adopt {n : NodeInfo} {hops : Int16} (hm : .predReply n hops ⟨i, .stabilizeSpFound⟩ ∈ msgs) :
      Change msgs i s (adopted s n)
  | notify {id : HashType} {port : UInt16} {ip : UInt32} (hip : ip ≠ 0)
      (hm : .notify i id port ∈ msgs) :
      Change msgs i s (nodeNotified s { id := id, IP := ip, port := port })

/-- A message that a turn may bring about. -/
inductive Brings (net : Net) (m : Msg) : Prop where
  | received {i : HashType} {m' : Msg} {peer peer' : Peer} (hm : m' ∈ net.msgs)
      (hi : net.peer i = some peer) (h : Receives i m' peer peer' (some m))
  | started {i : HashType} {s s' : NodeSelf} {sent : List Msg} (hi : net.peer i = some ⟨s, true⟩)
      (h : Starts i s s' sent) (hm : m ∈ sent)
  | asked {i dest : HashType} {arg : ℕ}
      (hm : m = .succRequest dest i [⟨i, .networkJoinSuccFound arg⟩])

theorem Receives.change {msgs : List Msg} {i : HashType} {m : Msg} {s : NodeSelf} {peer' : Peer}
    {out : Option Msg} (h : Receives i m ⟨s, true⟩ peer' out) (hm : m ∈ msgs) :
  ∃ s', peer' = ⟨s', true⟩ ∧ Change msgs i s s'
  := by
  cases h with
  | answer => exact ⟨_, rfl, .kept⟩
  | forward => exact ⟨_, rfl, .kept⟩
  | relayed => exact ⟨_, rfl, .kept⟩
  | entry hk => exact ⟨_, rfl, .entry hk hm⟩
  | finger => exact ⟨_, rfl, .finger hm⟩
  | app => exact ⟨_, rfl, .kept⟩
  | predRequest => exact ⟨_, rfl, .kept⟩
  | predReply => exact ⟨_, rfl, .adopt hm⟩
  | notify hip => exact ⟨_, rfl, .notify hip hm⟩

/-- What a node starts are requests. -/
theorem Starts.request {i : HashType} {s s' : NodeSelf} {sent : List Msg} (h : Starts i s s' sent)
    {m : Msg} (hm : m ∈ sent) :
  m = .predRequest s.firstSucc.id ⟨i, .stabilizeSpFound⟩
    ∨ ∃ dest id frames, m = .succRequest dest id frames
  := by
  cases h with
  | stabilise => exact Or.inl (List.mem_singleton.mp hm)
  | fixFingers =>
    obtain ⟨dest, k, -, rfl⟩ := eq_of_mem_route_fixFingers hm
    exact Or.inr ⟨_, _, _, rfl⟩
  | answered => cases hm
  | _ => exact Or.inr ⟨_, _, _, List.mem_singleton.mp hm⟩

theorem Starts.change {msgs : List Msg} {i : HashType} {s s' : NodeSelf} {sent : List Msg}
    (h : Starts i s s' sent) :
  Change msgs i s s'
  := by
  cases h with
  | fixFingers => exact .fixFingers
  | _ => exact .kept

namespace Net

variable {c : HashType} {net net' : Net} {m : Msg}

/-- The state of a joined node after a turn. -/
theorem Turn.change (h : Turn net net') {i : HashType} {s : NodeSelf}
    (hi : net.peer i = some ⟨s, true⟩) :
  ∃ s', net'.peer i = some ⟨s', true⟩ ∧ Change net.msgs i s s'
  := by
  have hother : ∀ {j : HashType} {peer : Option Peer}, i ≠ j →
      update net.peer j peer i = some ⟨s, true⟩ := by
    intro j peer hij
    rw [update_of_ne hij, hi]
  cases h with
  | received h =>
    obtain @⟨j, peer, peer', out, before, after, hm, hj, hrec⟩ := h
    by_cases hij : i = j
    · subst hij
      rw [hi] at hj
      cases hj
      obtain ⟨s', rfl, hchange⟩ := hrec.change (hm ▸ List.mem_append_right _ List.mem_cons_self)
      exact ⟨s', update_self .., hchange⟩
    · exact ⟨s, hother hij, .kept⟩
  | @started j r s' sent hj h =>
    by_cases hij : i = j
    · subst hij
      rw [hi] at hj
      cases hj
      exact ⟨s', update_self .., h.change⟩
    · exact ⟨s, hother hij, .kept⟩
  | @asked j r contact arg hj hc =>
    have hij : i ≠ j := by
      rintro rfl
      rw [hi] at hj
      cases hj
    exact ⟨s, hother hij, .kept⟩
  | lost hm => exact ⟨s, hi, .kept⟩

/-- A node that has joined after a turn had joined before, or has joined with a reply. -/
theorem Turn.joined_before (h : Turn net net') {i : HashType} {s' : NodeSelf}
    (hi : net'.peer i = some ⟨s', true⟩) :
  i ∈ net.Joined ∨ ∃ (s : NodeSelf) (n : NodeInfo) (hops : Int16) (arg : ℕ),
    .succReply n hops [⟨i, .networkJoinSuccFound arg⟩] ∈ net.msgs ∧ s' = s.setSuccessor 0 n
  := by
  cases h with
  | received h =>
    obtain @⟨j, peer, peer', out, before, after, hm, hj, hrec⟩ := h
    by_cases hij : i = j
    · subst hij
      dsimp only at hi
      rw [update_self] at hi
      cases hi
      cases hrec with
      | joined =>
        exact Or.inr ⟨_, _, _, _, hm ▸ List.mem_append_right _ List.mem_cons_self, rfl⟩
      | _ => exact Or.inl ⟨_, hj⟩
    · exact Or.inl ⟨s', (update_of_ne hij _ _).symm.trans hi⟩
  | @started j r r' sent hj h =>
    by_cases hij : i = j
    · subst hij
      exact Or.inl ⟨r, hj⟩
    · exact Or.inl ⟨s', (update_of_ne hij _ _).symm.trans hi⟩
  | @asked j r contact arg hj hc =>
    have hij : i ≠ j := by
      rintro rfl
      dsimp only at hi
      rw [update_self] at hi
      cases hi
    exact Or.inl ⟨s', (update_of_ne hij _ _).symm.trans hi⟩
  | lost hm => exact Or.inl ⟨s', hi⟩

/-- A message in flight after a turn was there before, or the turn has brought it about. -/
theorem Turn.brings (h : Turn net net') (hm : m ∈ net'.msgs) :
  m ∈ net.msgs ∨ Brings net m
  := by
  cases h with
  | received h =>
    obtain @⟨i, peer, peer', out, before, after, hin, hi, hrec⟩ := h
    rcases List.mem_append.mp hm with hm | hm
    · exact Or.inl ((kept hin).subset hm)
    · obtain rfl := Option.mem_toList.mp hm
      exact Or.inr (.received (hin ▸ List.mem_append_right _ List.mem_cons_self) hi hrec)
  | started hi h =>
    rcases List.mem_append.mp hm with hm | hm
    · exact Or.inl hm
    · exact Or.inr (.started hi h hm)
  | asked hi hc =>
    rcases List.mem_append.mp hm with hm | hm
    · exact Or.inl hm
    · exact Or.inr (.asked (List.mem_singleton.mp hm))
  | lost hin => exact Or.inl ((kept hin).subset hm)

end Net
