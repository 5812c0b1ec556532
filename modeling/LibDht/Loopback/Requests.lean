import LibDht.Loopback.Mirrored

/-!
# Requests that arrive

A request that arrives whole at a process is the message in flight that the wires say: the
node in the network that is asked is the one that listens there, and it does the same. The
answer, if there is one, is written to the connection, and is a message in flight again.
-/

open Function Relation

namespace Machine

section

variable {port : HashType → UInt16} {c : HashType} {m : Machine} {l : Located} {W : Wires}
  {link : Link} {p q : NodeProcess} {e e' : Bool} {j k : Fin maxOpenConnections}
  {b b' : Bufferevent} {v : ℕ} {u : Purpose}

/-- A message goes to a node that has joined. -/
theorem asks_dest {J : Set HashType} {i d : HashType} {fs : List Frame} {msg : Msg}
    (h : u.asks i d fs = some msg) (hok : MsgOk c J msg) :
  d ∈ J
  := by
  cases u with
  | probe cb => cases h
  | _ =>
    cases h
    exact hok.1

/-- What is left of the messages when one is taken out. -/
theorem mem_of_ticket_ne {xs before after : List (Option Ticket × Msg)} {t t' : Ticket}
    {msg msg' : Msg} (hxs : xs = before ++ (some t, msg) :: after) (hne : t' ≠ t)
    (hin : (some t', msg') ∈ xs) :
  (some t', msg') ∈ before ++ after
  := by
  rw [hxs, List.mem_append, List.mem_cons] at hin
  rw [List.mem_append]
  rcases hin with hin | heq | hin
  · left
    apply hin
  · exact absurd (Option.some.inj (congrArg Prod.fst heq)) hne
  · right
    apply hin

/-- What is read of a predecessor that is reported. -/
theorem readFound_predecessorReply (s : NodeSelf) (old : NodeInfo × Int16) (byte : UInt8) :
  readFound old byte (predecessorReply s) = (predAnswer s, old.2)
  := by
  rw [predecessorReply, predAnswer]
  split_ifs
  · rw [← List.append_nil (nodeBytes s.predecessor), readFound_node, i16.fill_nil]
  · rw [readFound_no (by decide)]

theorem askOne_self :
  askOne link link = { link with asked := true }
  := if_pos rfl

theorem askOne_mem (hlink : link ∈ m.links) :
  askOne link link ∈ ask m.links link
  := mem_ask.mpr ⟨link, hlink, rfl⟩

namespace Mirrored

/-- A request that has not arrived is a message in flight, to the node that it reaches. -/
theorem request_msg (h : Mirrored port m l W) (hl : Runs port c l) (hlink : link ∈ m.links)
    (hasked : link.asked = false) (hq : m.host link.server = some { process := q, entered := e' })
    (hu : W.conn link.near = some (.made u (0x7F000001, port link.server))) :
  (∃ cb, u = .probe cb) ∨ ∃ msg before after,
    u.asks link.client link.server (W.frames link.near) = some msg
      ∧ W.msgs = before ++ (some { conn := link.near, back := false }, msg) :: after
  := by
  have hunasked : ∀ l ∈ m.links, l.near = link.near → l.asked = false := by
    intro l' hl' heq
    rw [h.wired.near_inj l' hl' link hlink heq]
    apply hasked
  rcases h.wired.request _ _ _ hu hunasked with hprobe | ⟨d, msg, hsin, hasks, hin⟩
  · left
    apply hprobe
  · right
    have hmem : msg ∈ l.net.msgs := by
      rw [h.msgs]
      exact List.mem_map_of_mem hin
    obtain ⟨s, hs⟩ := asks_dest hasks (hl.net_reachable.invariant.msg _ hmem)
    have hd : m.host d ≠ none := by
      intro hnone
      rw [h.peer, hnone] at hs
      cases hs
    obtain rfl : d = link.server :=
      h.ports d link.server hd (by rw [hq]; apply Option.some_ne_none) (congrArg Prod.snd hsin).symm
    obtain ⟨before, after, hsplit⟩ := List.append_of_mem hin
    exact ⟨msg, before, after, hasks, hsplit⟩

/-- The end of a connection on which no request has arrived. -/
theorem conn_far_unasked (h : Mirrored port m l W) (hlink : link ∈ m.links)
    (hasked : link.asked = false) (hq : m.host link.server = some { process := q, entered := e' })
    (hv : link.taken = some v) (hb' : Connected q j v b') :
  W.row link.server v = some (.taken j []) ∧ ¬ W.Pending (link.server, v)
  := by
  have hconn := h.conn_far hlink hq hv hb'
  obtain ⟨hpending, hempty⟩ := h.wired.quiet link hlink _ hasked (far_of_taken hv)
  rw [hempty j _ hconn] at hconn
  exact ⟨hconn, hpending⟩

/-- A lookup arrives at a process. -/
theorem lookupArrives (h : Mirrored port m l W) (hl : Runs port c l) (hlink : link ∈ m.links)
    (hasked : link.asked = false) (hq : m.host link.server = some { process := q, entered := e' })
    (hv : link.taken = some v) (hb' : Connected q j v b') {id : HashType} {data : NodeFoundCbData}
    (hu : W.conn link.near = some (.made (.lookup id data) (0x7F000001, port link.server)))
    (hrun : (q.occur (.data j (Request.findSuccessor id).wire)).net.crashed = false) :
  ∃ l' W', Moves port l l'
    ∧ Mirrored port { m.run link.server e' (q.occur (.data j (Request.findSuccessor id).wire)) with
        links := ask m.links link } l' W'
  := by
  obtain ⟨hs, hpending⟩ := h.conn_far_unasked hlink hasked hq hv hb'
  obtain ⟨q₁, hnode₁, hnext₁, hshows₁, hoccur⟩ := occur_findSuccessor (h.shows_host hq) hb' hs id
  -- a process that is asked for its own identifier does not go on running
  have hne : q₁.node.self.id ≠ id := by
    intro hid
    rw [hoccur, crashed_of_own hid] at hrun
    cases hrun
  have hown : link.server ≠ id := by
    have hself := (hl.net_reachable.invariant.peer (h.peer_of_host hq)).self_id
    rw [← hself, ← hnode₁]
    apply hne
  obtain ⟨hnode, hnode', hserved⟩ := hshows₁.served hs hne
  rw [← hoccur, hnode₁] at hnode hserved
  rw [hnode₁] at hnode'
  generalize q.occur (.data j (Request.findSuccessor id).wire) = q₂ at hnode hserved ⊢
  rcases h.request_msg hl hlink hasked hq hu with ⟨cb, hprobe⟩ | ⟨msg, before, after, hasks, hmsgs⟩
  · cases hprobe
  cases hasks
  let fs : List Frame := { owner := link.client, cb := data.cb.masked } :: W.frames link.near
  have hmsgs' : l.net.msgs = before.map Prod.snd
      ++ .succRequest link.server id fs :: after.map Prod.snd := by
    rw [h.msgs, hmsgs, List.map_append, List.map_cons]
  have hstep : Moves port l (l.act link.server e' fs (before.map Prod.snd ++ after.map Prod.snd)
      (nodeFindSuccessor (idle q.node) id relay).2) :=
    .succRequest hmsgs' (h.peer_of_host hq) hown (fun _ => mayTell_loopback _ _)
  have hright := (hl.step hstep).invariant.dialled
  generalize (nodeFindSuccessor (idle q.node) id relay).2 = r at hnode' hserved hstep hright
  have hwired₁ : Wired port m.next (ask m.links link) (W.carry (before ++ after)) :=
    h.wired.ask hlink hasked (fun t msg hne hin => mem_of_ticket_ne hmsgs hne hin)
  have hfar : (askOne link link).far = some (link.server, v) :=
    askOne_far.trans (far_of_taken hv)
  have hports := h.ports_of_host (i := link.server) (by rw [hq]; apply Option.some_ne_none)
  have hpeer : (l.act link.server e' fs (before.map Prod.snd ++ after.map Prod.snd) r).net.peer
      = update l.net.peer link.server (some { node := q₂.node, joined := e' }) := by
    rw [hnode, ← hnode']
    rfl
  rcases hserved with ⟨n, rest, hnext, hshows, hroute⟩ | ⟨n, hsends, hsent⟩
  · let reply : Option Ticket × Msg :=
      (some { conn := link.near, back := true }, .succReply n 1 fs)
    refine ⟨_, (W.carry (before ++ after)).put (link.server, v)
      (some (.taken j (successorReply n 1 ++ rest))) (before ++ after ++ [reply]), hstep,
      h.run _ hports hpeer ?_ (fun i hi => Wires.row_put_of_ne hi) ?_ ?_⟩
    · rw [Wires.row_put]
      apply hshows
    · rw [next_same hq (hnext.trans hnext₁)]
      apply hwired₁.write (askOne_mem hlink) (by rw [askOne_self]) hfar hs hpending
      · intro y hy
        exact List.mem_append_left _ hy
      · intro u sin hu'
        rw [askOne_near] at hu' ⊢
        rw [Wires.carry, Wires.carry, hu] at hu'
        cases hu'
        right
        exact ⟨data, n, 1, _, rfl, fun byte => readFound_successorReply _ byte n 1 rest, rfl,
          List.mem_append_right _ List.mem_cons_self⟩
    · change before.map Prod.snd ++ after.map Prod.snd ++ route link.server fs r.net.sent = _
      rw [hroute, Wires.put, List.map_append, List.map_append]
      rfl
  · have hnext : m.next link.server = q₁.net.nextSerial := (next_of_host hq).trans hnext₁.symm
    have hn : (n.IP, n.port) = (0x7F000001, port n.id) := by
      apply reaches_loopback (i := link.server)
      apply hright link.server n
      apply List.mem_append_right
      apply mem_dialledBy (a := .findSuccessor n id relay)
      · rw [hsent]
        apply List.mem_cons_self
      · rfl
    have hforwards : (W.carry (before ++ after)).Forwards (ask m.links link) link.server fs
        { connection := j.val, asker := some v } := by
      refine ⟨askOne link link, askOne_mem hlink, v, j, id, data, (0x7F000001, port link.server), rfl,
        hfar, ?_, hs, ?_, ?_⟩
      · rw [askOne_self]
      · rw [askOne_near]
        apply hu
      · rw [askOne_self]
        rfl
    obtain ⟨W', hwired', hsends'⟩ := hwired₁.sent hnext rfl (Or.inr hn) hsends
      (by
        intro cb hcb hlocal
        obtain rfl := Option.some.inj hcb
        exact absurd rfl (hlocal _))
      (by
        intro d hd
        cases hd
        use hforwards
        intro v' hv'
        obtain rfl := Option.some.inj hv'
        apply hpending)
    refine ⟨_, W', hstep, h.run _ hports hpeer hsends'.shows hsends'.other hwired' ?_⟩
    change before.map Prod.snd ++ after.map Prod.snd ++ route link.server fs r.net.sent = _
    rw [hsends'.msgs, hsent, Wires.carry, List.map_append]
    rfl

/-- A node is asked for its predecessor. -/
theorem predecessorArrives (h : Mirrored port m l W) (hl : Runs port c l) (hlink : link ∈ m.links)
    (hasked : link.asked = false) (hq : m.host link.server = some { process := q, entered := e' })
    (hv : link.taken = some v) (hb' : Connected q j v b') {data : NodeFoundCbData}
    (hu : W.conn link.near = some (.made (.predecessor data) (0x7F000001, port link.server))) :
  ∃ l' W', Moves port l l'
    ∧ Mirrored port { m.run link.server e' (q.occur (.data j Request.predecessor.wire)) with
        links := ask m.links link } l' W'
  := by
  obtain ⟨hs, hpending⟩ := h.conn_far_unasked hlink hasked hq hv hb'
  obtain ⟨hnode, hnext, hshows⟩ := occur_predecessor (h.shows_host hq) hb' hs
  generalize q.occur (.data j Request.predecessor.wire) = q' at hnode hnext hshows ⊢
  rcases h.request_msg hl hlink hasked hq hu with ⟨cb, hprobe⟩ | ⟨msg, before, after, hasks, hmsgs⟩
  · cases hprobe
  cases hasks
  let f : Frame := { owner := link.client, cb := data.cb.masked }
  let reply : Msg := .predReply (predAnswer q.node) data.hops f
  have hmsgs' : l.net.msgs = before.map Prod.snd
      ++ .predRequest link.server f :: after.map Prod.snd := by
    rw [h.msgs, hmsgs, List.map_append, List.map_cons]
  have hpeer := h.peer_of_host hq
  have hwired₁ : Wired port m.next (ask m.links link) (W.carry (before ++ after)) :=
    h.wired.ask hlink hasked (fun t msg hne hin => mem_of_ticket_ne hmsgs hne hin)
  have hfar : (askOne link link).far = some (link.server, v) :=
    askOne_far.trans (far_of_taken hv)
  refine ⟨_, (W.carry (before ++ after)).put (link.server, v)
    (some (.taken j (predecessorReply q.node)))
    (before ++ after ++ [(some { conn := link.near, back := true }, reply)]),
    .predRequest data.hops hmsgs' hpeer (fun _ => mayTell_loopback _ _),
    h.run _ (h.ports_of_host (by rw [hq]; apply Option.some_ne_none)) ?_ ?_
      (fun i hi => Wires.row_put_of_ne hi) ?_ ?_⟩
  · rw [hnode, ← hpeer, update_eq_self]
  · rw [Wires.row_put]
    apply hshows
  · rw [next_same hq hnext]
    apply hwired₁.write (askOne_mem hlink) (by rw [askOne_self]) hfar hs hpending
    · intro y hy
      exact List.mem_append_left _ hy
    · intro u sin hu'
      rw [askOne_near] at hu' ⊢
      rw [Wires.carry, Wires.carry, hu] at hu'
      cases hu'
      right
      exact ⟨data, predAnswer q.node, data.hops, _, rfl,
        fun byte => readFound_predecessorReply q.node _ byte, rfl,
        List.mem_append_right _ List.mem_cons_self⟩
  · change before.map Prod.snd ++ after.map Prod.snd ++ [reply] = _
    rw [Wires.put, List.map_append, List.map_append]
    rfl

/-- A probe arrives. The network does nothing. -/
theorem probeArrives (h : Mirrored port m l W) (hlink : link ∈ m.links)
    (hasked : link.asked = false) (hq : m.host link.server = some { process := q, entered := e' })
    (hv : link.taken = some v) (hb' : Connected q j v b') {cb : CheckCb}
    (hu : W.conn link.near = some (.made (.probe cb) (0x7F000001, port link.server))) :
  ∃ W', Mirrored port { m.run link.server e' (q.occur (.data j Request.alive.wire)) with
    links := ask m.links link } l W'
  := by
  obtain ⟨hs, hpending⟩ := h.conn_far_unasked hlink hasked hq hv hb'
  obtain ⟨tail, hnode, hnext, hshows⟩ := occur_alive (h.shows_host hq) hb' hs
  have hwired₁ : Wired port m.next (ask m.links link) (W.carry W.msgs) :=
    h.wired.ask hlink hasked (fun _ _ _ hin => hin)
  have hfar : (askOne link link).far = some (link.server, v) :=
    askOne_far.trans (far_of_taken hv)
  refine ⟨(W.carry W.msgs).put (link.server, v) (some (.taken j (aliveReply tail))) W.msgs,
    h.stutter _ hq hnode ?_ (fun i hi => Wires.row_put_of_ne hi) ?_ rfl⟩
  · rw [Wires.row_put]
    apply hshows
  · rw [next_same hq hnext]
    apply hwired₁.write (askOne_mem hlink) (by rw [askOne_self]) hfar hs hpending
      (fun _ hy => hy)
    intro u sin hu'
    rw [askOne_near, Wires.carry, Wires.carry, hu] at hu'
    cases hu'
    left
    exact ⟨cb, tail, rfl, rfl⟩

/-- A notification arrives. -/
theorem notificationArrives (h : Mirrored port m l W) (hl : Runs port c l)
    (hlink : link ∈ m.links) (hasked : link.asked = false)
    (hq : m.host link.server = some { process := q, entered := e' }) (hv : link.taken = some v)
    (hb' : Connected q j v b') {id : HashType} {pt : UInt16}
    (hu : W.conn link.near = some (.made (.notify id pt) (0x7F000001, port link.server))) :
  ∃ l' W', Moves port l l'
    ∧ Mirrored port { m.run link.server e' (q.occur (.data j (Request.notify id pt).wire)) with
        links := ask m.links link } l' W'
  := by
  obtain ⟨hs, hpending⟩ := h.conn_far_unasked hlink hasked hq hv hb'
  obtain ⟨hnode, hnext, hshows⟩ := occur_notify (h.shows_host hq) hb' hs id pt
  generalize q.occur (.data j (Request.notify id pt).wire) = q' at hnode hnext hshows ⊢
  rcases h.request_msg hl hlink hasked hq hu with ⟨cb, hprobe⟩ | ⟨msg, before, after, hasks, hmsgs⟩
  · cases hprobe
  cases hasks
  have hmsgs' : l.net.msgs = before.map Prod.snd
      ++ .notify link.server id pt :: after.map Prod.snd := by
    rw [h.msgs, hmsgs, List.map_append, List.map_cons]
  have hfar := far_of_taken hv
  have hclosed : Wired port m.next m.links (W.put (link.server, v) none W.msgs) := by
    apply h.wired.close _ _ (fun _ _ _ hin => hin)
    intro l' hl' hends t ht
    rcases hends with hends | hends
    · obtain ⟨u', hu'⟩ := h.wired.near l' hl' _ (by rw [hends]; exact hs)
      cases hu'
    · rw [hends] at ht
      obtain rfl := Option.some.inj ht
      apply hpending
  refine ⟨_, (W.put (link.server, v) none W.msgs).carry (before ++ after),
    .notify 0x7F000001 (by decide) (Or.inl rfl) hmsgs' (h.peer_of_host hq),
    h.run _ (h.ports_of_host (by rw [hq]; apply Option.some_ne_none)) ?_ ?_
      (fun i hi => Wires.row_put_of_ne hi) ?_ ?_⟩
  · rw [hnode]
    rfl
  · change Shows q'.net ((W.put (link.server, v) none W.msgs).row link.server)
    rw [Wires.row_put]
    apply hshows
  · rw [next_same hq hnext]
    exact hclosed.ask hlink hasked (fun t msg hne hin => mem_of_ticket_ne hmsgs hne hin)
  · change before.map Prod.snd ++ after.map Prod.snd ++ [] = _
    rw [List.append_nil, Wires.carry, List.map_append]

/-- A request arrives at a process, and at the node in the network unless it is a probe. -/
theorem requestArrives (h : Mirrored port m l W) (hl : Runs port c l) (hlink : link ∈ m.links)
    (hasked : link.asked = false) (hp : m.host link.client = some { process := p, entered := e })
    (hb : Connected p k link.made b)
    (hq : m.host link.server = some { process := q, entered := e' }) (hv : link.taken = some v)
    (hb' : Connected q j v b') (hrun : (q.occur (.data j b.output)).net.crashed = false) :
  ∃ l' W', ReflTransGen (Moves port) l l'
    ∧ Mirrored port { m.run link.server e' (q.occur (.data j b.output)) with
        links := ask m.links link } l' W'
  := by
  obtain ⟨u, hu⟩ := h.conn_near hlink hp hb
  obtain ⟨-, -, -, hwire⟩ := (h.shows_host hp).dials hb hu
  rw [hwire] at hrun ⊢
  cases u with
  | lookup id data =>
    obtain ⟨l', W', hstep, hW'⟩ := h.lookupArrives hl hlink hasked hq hv hb' hu hrun
    exact ⟨l', W', .single hstep, hW'⟩
  | predecessor data =>
    obtain ⟨l', W', hstep, hW'⟩ := h.predecessorArrives hl hlink hasked hq hv hb' hu
    exact ⟨l', W', .single hstep, hW'⟩
  | probe cb =>
    obtain ⟨W', hW'⟩ := h.probeArrives hlink hasked hq hv hb' hu
    exact ⟨l, W', .refl, hW'⟩
  | notify id pt =>
    obtain ⟨l', W', hstep, hW'⟩ := h.notificationArrives hl hlink hasked hq hv hb' hu
    exact ⟨l', W', .single hstep, hW'⟩

end Mirrored

end

end Machine
