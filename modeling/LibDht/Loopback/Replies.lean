import LibDht.Loopback.Requests

/-!
# Replies that arrive

A reply that arrives whole at a process is read as what its message says. The connection is
closed, and the callback is handed the node, as in the network. When the lookup was made for a
request that came in, the connection of that request is still there, nothing has been written
to it, and the answer goes to the one that asked.
-/

open Function Relation

namespace Machine

section

variable {port : HashType → UInt16} {c : HashType} {m : Machine} {l : Located} {W : Wires}
  {link : Link} {p q : NodeProcess} {e e' : Bool} {j k : Fin maxOpenConnections}
  {b b' : Bufferevent} {v : ℕ} {u : Purpose} {sin : UInt32 × UInt16} {data : NodeFoundCbData}
  {n : NodeInfo} {hops : Int16}

/-- Whether a process enters the network with a reply is told by its callback. -/
theorem joinsOn_found (h : Dials (p.net.connections k) u sin) (hfound : u.found = some data) :
  joinsOn p k = Net.joins data.cb
  := by
  have harg : (p.net.connections k).upperCbArg = some (.found data) := by
    rw [h.arg]
    cases u <;> first | exact congrArg (some ∘ CbArg.found) (Option.some.inj hfound) | cases hfound
  rw [joinsOn, harg]

theorem joinsOn_probe {cb : CheckCb} (h : Dials (p.net.connections k) (.probe cb) sin) :
  joinsOn p k = false
  := by
  rw [joinsOn, h.arg]
  rfl

namespace Mirrored

/-- For a connection on which the reply is there, nothing is forwarded any more. -/
theorem not_pending (h : Mirrored port m l W) (hlink : link ∈ m.links)
    (hv : link.taken = some v) (hu : W.conn link.near = some (.made u sin)) {out : List UInt8}
    (hconn : W.conn (link.server, v) = some (.taken j out)) (hout : out ≠ []) :
  ∀ l ∈ m.links, l.near = link.near ∨ l.far = some link.near → ∀ t, l.far = some t → ¬ W.Pending t
  := by
  intro l' hl' hends t ht hpending
  obtain ⟨-, -, -, -, j', htaken⟩ := h.wired.of_pending hpending
  rcases hends with hends | hends
  · obtain rfl := h.wired.near_inj l' hl' link hlink hends
    rw [far_of_taken hv] at ht
    obtain rfl := Option.some.inj ht
    rw [hconn] at htaken
    cases htaken
    exact absurd rfl hout
  · rw [hends] at ht
    obtain rfl := Option.some.inj ht
    rw [hu] at htaken
    cases htaken

/-- A reply has been read, and the connection is closed. -/
theorem closes (h : Mirrored port m l W)
    (hp : m.host link.client = some { process := p, entered := e })
    (hpend : ∀ l ∈ m.links, l.near = link.near ∨ l.far = some link.near → ∀ t, l.far = some t →
      ¬ W.Pending t)
    {msg : Msg} {before after : List (Option Ticket × Msg)}
    (hmsgs : W.msgs = before ++ (some { conn := link.near, back := true }, msg) :: after)
    (hnode : q.node = p.node) (hnext : q.net.nextSerial = p.net.nextSerial)
    (hshows : Shows q.net (update (W.row link.client) link.made none)) :
  Mirrored port (m.run link.client e q)
    { l with net := { l.net with msgs := before.map Prod.snd ++ after.map Prod.snd } }
    (W.put link.near none (before ++ after))
  := by
  apply h.run m.links (h.ports_of_host (by rw [hp]; apply Option.some_ne_none))
  · rw [hnode, ← h.peer_of_host hp, update_eq_self]
  · rw [Link.near, Wires.row_put]
    apply hshows
  · intro i hi
    exact Wires.row_put_of_ne hi
  · rw [next_same hp hnext]
    apply h.wired.close _ hpend
    intro t msg' hne hin
    exact mem_of_ticket_ne hmsgs (fun heq => hne (congrArg Ticket.conn heq)) hin
  · rw [Wires.put, List.map_append]

/-- A node is handed to a callback that answers no request. -/
theorem hands {kept : List Msg} {i : HashType}
    (h : Mirrored port m { l with net := { l.net with msgs := kept } } W) (hl : Runs port c l)
    (hq : m.host i = some { process := q, entered := e }) (data : NodeFoundCbData)
    (hsent : ∀ a ∈ (nodeFound (idle q.node) data).net.sent, SentOk l.net.Joined i a)
    (hstep : Moves port l (l.act i e' [] kept (nodeFound (idle q.node) data))) :
  ∃ W', Mirrored port (m.run i e' (nodeFound q data))
    (l.act i e' [] kept (nodeFound (idle q.node) data)) W'
  := by
  have hright := (hl.step hstep).invariant.dialled
  have hlike := nodeFound_like (selfOnly_nodeNet.mirrors q.node q.net) (like_idle q) data
  apply h.sends hq hlike
  · intro a ha
    apply sendable_of_ok (hsent a ha)
    intro n hn
    apply reaches_loopback
    apply hright i n
    exact List.mem_append_right _ (mem_dialledBy ha hn)
  · rfl
  · rfl

/-- The reply to a lookup of the node itself. -/
theorem answerArrives {before after : List Msg} {i : HashType}
    (h : Mirrored port m { l with net := { l.net with msgs := before ++ after } } W)
    (hl : Runs port c l) (hq : m.host i = some { process := q, entered := e })
    (hpeer : l.net.peer i = some { node := q.node, joined := e }) {cb : FoundCb} (hcb : cb.Local)
    (hmsgs : l.net.msgs = before ++ .succReply n hops [{ owner := i, cb := cb }] :: after) :
  ∃ l' W', Moves port l l' ∧ Mirrored port
    (m.run i (e || Net.joins cb) (nodeFound q { cb := cb, node := n, hops := hops })) l' W'
  := by
  have hstep : Moves port l (l.act i (e || Net.joins cb) [] (before ++ after)
      (nodeFound (idle q.node) { cb := cb, node := n, hops := hops })) := .succReply hmsgs hpeer
  have hinv := hl.net_reachable.invariant
  have hin : Msg.succReply n hops [{ owner := i, cb := cb }] ∈ l.net.msgs :=
    hmsgs ▸ List.mem_append_right before List.mem_cons_self
  obtain ⟨hn, ⟨id, hwaits⟩, -⟩ := hinv.msg _ hin
  obtain ⟨W', hW'⟩ := h.hands hl hq { cb := cb, node := n, hops := hops } (by
    by_cases hjoins : Net.joins cb = true
    · cases cb with
      | networkJoinSuccFound arg => exact fun a ha => absurd ha List.not_mem_nil
      | _ => cases hjoins
    · rw [Bool.not_eq_true] at hjoins
      have hi : i ∈ l.net.Joined := by
        have hwaits' : Waits l.net.Joined id { owner := i, cb := cb } := hwaits
        cases cb with
        | networkJoinSuccFound arg => cases hjoins
        | stabilizeSpFound => exact absurd hwaits' not_false
        | updateSuccsFound k => exact hwaits'.1
        | fingerUpdate k => exact hwaits'
        | successorFoundForRemote d => exact absurd rfl (hcb d)
        | app arg => exact hwaits'
        | freed => exact absurd hwaits' not_false
      obtain rfl := Net.joined_of_mem hi hpeer
      exact ((hinv.running hpeer).found hwaits hjoins hn hops).sent) hstep
  exact ⟨_, W', hstep, hW'⟩

/-- The reply to a node that asked for a predecessor. -/
theorem reportArrives {before after : List Msg} {i : HashType}
    (h : Mirrored port m { l with net := { l.net with msgs := before ++ after } } W)
    (hl : Runs port c l) (hq : m.host i = some { process := q, entered := e })
    (hpeer : l.net.peer i = some { node := q.node, joined := e }) {cb : FoundCb}
    (hmsgs : l.net.msgs = before ++ .predReply n hops { owner := i, cb := cb.masked } :: after) :
  ∃ l' W', Moves port l l' ∧ Mirrored port
    (m.run i (e || Net.joins cb) (nodeFound q { cb := cb, node := n, hops := hops })) l' W'
  := by
  have hinv := hl.net_reachable.invariant
  have hin : Msg.predReply n hops { owner := i, cb := cb.masked } ∈ l.net.msgs :=
    hmsgs ▸ List.mem_append_right before List.mem_cons_self
  obtain ⟨hi, hcb, hn⟩ := hinv.msg _ hin
  obtain rfl : cb = .stabilizeSpFound := by
    cases cb <;> first | rfl | cases hcb
  have hstep : Moves port l (l.act i e [] (before ++ after)
      (nodeFound (idle q.node) { cb := .stabilizeSpFound, node := n, hops := hops })) :=
    .predReply hmsgs hpeer
  obtain rfl := Net.joined_of_mem hi hpeer
  have hemit : Running c l.net.Joined i ((idle q.node).emit (.found .stabilizeSpFound n hops)) :=
    (hinv.running hpeer).congr rfl rfl
  obtain ⟨W', hW'⟩ := h.hands hl hq { cb := .stabilizeSpFound, node := n, hops := hops }
    (hemit.stabilize_sp_found hn).sent hstep
  exact ⟨_, W', hstep, hW'⟩

/-- The reply to a lookup that was forwarded: the answer is passed on. -/
theorem relayArrives (h : Mirrored port m l W)
    (hp : m.host link.client = some { process := p, entered := e })
    (hpend : ∀ l ∈ m.links, l.near = link.near ∨ l.far = some link.near → ∀ t, l.far = some t →
      ¬ W.Pending t)
    {before after : List (Option Ticket × Msg)}
    (h₀ : Mirrored port (m.run link.client e q)
      { l with net := { l.net with msgs := before.map Prod.snd ++ after.map Prod.snd } }
      (W.put link.near none (before ++ after)))
    (hnode : q.node = p.node) (hawaits : W.Awaits link.near data) {d : IncomingHandlerData}
    (hd : data.cb = .successorFoundForRemote d)
    (hmsgs : l.net.msgs = before.map Prod.snd ++ .succReply n hops
      ({ owner := link.client, cb := relay } :: W.frames link.near) :: after.map Prod.snd) :
  ∃ l' W', Moves port l l' ∧ Mirrored port
    (m.run link.client e (nodeFound q { cb := data.cb, node := n, hops := hops })) l' W'
  := by
  obtain ⟨l₁, h₁, v₁, j₁, id, data₁, sin₁, rfl, hfar₁, hasked₁, htaken₁, hnear₁, hfs⟩ :=
    h.wired.forwards link.near data d hawaits hd
  obtain ⟨hne, hne₁⟩ := h.wired.forwards_ne hpend hawaits hd rfl h₁ hfar₁
  have hmade : ∀ u sin, (none : Option Conn) ≠ some (.made u sin) := fun _ _ => nofun
  have hconn₁ : (W.put link.near none (before ++ after)).conn (link.client, v₁)
      = some (.taken j₁ []) := (Wires.conn_put_of_ne hne).trans htaken₁
  have hjoins : (e || Net.joins relay) = e := Bool.or_false e
  have hstep : Moves port l (l.act link.client (e || Net.joins relay) (W.frames link.near)
      (before.map Prod.snd ++ after.map Prod.snd)
      (nodeFound (idle p.node) { cb := relay, node := n, hops := hops })) :=
    .succReply hmsgs (h.peer_of_host hp)
  rw [hjoins] at hstep
  obtain ⟨hnode', hnext', hshows'⟩ :=
    (h₀.shows_host run_host).nodeFound_answerTo hconn₁ n (rfl : hops + 1 = hops + 1)
  have hcb : data.cb = answerTo j₁ v₁ := hd
  rw [hcb]
  generalize nodeFound q { cb := answerTo j₁ v₁, node := n, hops := hops } = q'
    at hnode' hnext' hshows' ⊢
  have hpending : ¬ (W.put link.near none (before ++ after)).Pending (link.client, v₁) := by
    -- there was one lookup only, and its connection is closed
    rintro ⟨s, data', j', hawaits', hcb'⟩
    obtain ⟨hne', hawaits'⟩ := (Wires.awaits_put hmade).mp hawaits'
    have hs := h.wired.once link.client link.made s v₁ j₁ j' data data' hawaits hcb hawaits' hcb'
    exact hne' (congrArg (Prod.mk link.client) hs.symm)
  let answer : Msg := .succReply n (hops + 1) (W.frames link.near)
  have hrun : Mirrored port ((m.run link.client e q).run link.client e q') (l.act link.client e
      (W.frames link.near) (before.map Prod.snd ++ after.map Prod.snd)
      (nodeFound (idle p.node) { cb := relay, node := n, hops := hops }))
      ((W.put link.near none (before ++ after)).put (link.client, v₁)
        (some (.taken j₁ (successorReply n (hops + 1))))
        (before ++ after ++ [(some { conn := l₁.near, back := true }, answer)])) := by
    apply h₀.run m.links (h₀.ports_of_host (by rw [run_host]; apply Option.some_ne_none))
    · rw [hnode', hnode]
      rfl
    · rw [Wires.row_put]
      apply hshows'
    · intro i hi
      exact Wires.row_put_of_ne hi
    · rw [next_same run_host hnext']
      apply h₀.wired.write h₁ hasked₁ hfar₁ hconn₁ hpending
      · intro y hy
        exact List.mem_append_left _ hy
      · intro u sin hu
        have hconn : (W.put link.near none (before ++ after)).conn l₁.near = W.conn l₁.near :=
          Wires.conn_put_of_ne hne₁
        rw [Wires.carry, hconn, hnear₁] at hu
        cases hu
        right
        refine ⟨data₁, n, hops + 1, answer, rfl, ?_, ?_, List.mem_append_right _ List.mem_cons_self⟩
        · intro byte
          have hread := readFound_successorReply (data₁.node, data₁.hops) byte n (hops + 1) []
          rwa [List.append_nil] at hread
        · dsimp only [answer]
          rw [hfs]
          rfl
    · change before.map Prod.snd ++ after.map Prod.snd ++ [answer] = _
      rw [Wires.put, List.map_append, List.map_append]
      rfl
  rw [run_run] at hrun
  exact ⟨_, _, hstep, hrun⟩

/-- A reply arrives at a process, and at the node in the network unless it answers a probe. -/
theorem replyArrives (h : Mirrored port m l W) (hl : Runs port c l) (hlink : link ∈ m.links)
    (hp : m.host link.client = some { process := p, entered := e })
    (hb : Connected p k link.made b)
    (hq : m.host link.server = some { process := q, entered := e' }) (hv : link.taken = some v)
    (hb' : Connected q j v b') (hout : b'.output ≠ []) :
  ∃ l' W', ReflTransGen (Moves port) l l' ∧ Mirrored port
    (m.run link.client (e || joinsOn p k) (p.occur (.data k b'.output))) l' W'
  := by
  obtain ⟨u, hu⟩ := h.conn_near hlink hp hb
  have hconn := h.conn_far hlink hq hv hb'
  obtain ⟨hdials, -⟩ := (h.shows_host hp).dials hb hu
  have hpend := h.not_pending hlink hv hu hconn hout
  rcases h.wired.reply link hlink _ j _ (far_of_taken hv) hconn hout u _ hu with
    ⟨cb, tail, rfl, htail⟩ | ⟨data, n, hops, msg, hfound, hread, hreturns, hin⟩
  · obtain ⟨hnode, hnext, -, hshows⟩ := occur_probed (h.shows_host hp) hb hu tail
    rw [htail, joinsOn_probe hdials, Bool.or_false]
    refine ⟨l, W.put link.near none W.msgs, .refl, ?_⟩
    apply h.stutter m.links hp hnode _ (fun i hi => Wires.row_put_of_ne hi) _ rfl
    · rw [Link.near, Wires.row_put]
      apply hshows
    · rw [next_same hp hnext]
      exact h.wired.close _ hpend (fun _ _ _ hin => hin)
  · obtain ⟨q₀, hnode, hnext, -, hshows, hoccur⟩ :=
      occur_reply (h.shows_host hp) hb hu hfound hout hread
    rw [hoccur, joinsOn_found hdials hfound]
    obtain ⟨before, after, hmsgs⟩ := List.append_of_mem hin
    have h₀ := h.closes hp hpend hmsgs hnode hnext hshows
    have hpeer : l.net.peer link.client = some { node := q₀.node, joined := e } := by
      rw [h.peer_of_host hp, hnode]
    have hmsgs' : l.net.msgs = before.map Prod.snd ++ msg :: after.map Prod.snd := by
      rw [h.msgs, hmsgs, List.map_append, List.map_cons]
    have hawaits : W.Awaits link.near data := ⟨u, _, hu, hfound⟩
    cases u with
    | lookup id data' =>
      cases hfound
      cases hreturns
      by_cases hcb : data.cb.Local
      · rw [h.wired.own _ _ hawaits hcb, FoundCb.masked_of_local hcb] at hmsgs'
        obtain ⟨l', W', hstep, hW'⟩ := h₀.answerArrives hl run_host hpeer hcb hmsgs'
        rw [run_run] at hW'
        exact ⟨l', W', .single hstep, hW'⟩
      · obtain ⟨d, hd⟩ := not_forall_not.mp hcb
        have hjoins : (e || Net.joins data.cb) = e := by rw [hd]; exact Bool.or_false e
        have hmasked : data.cb.masked = relay := by rw [hd]; rfl
        rw [hmasked] at hmsgs'
        rw [hjoins]
        obtain ⟨l', W', hstep, hW'⟩ := h.relayArrives hp hpend h₀ hnode hawaits hd hmsgs'
        exact ⟨l', W', .single hstep, hW'⟩
    | predecessor data' =>
      cases hfound
      cases hreturns
      obtain ⟨l', W', hstep, hW'⟩ := h₀.reportArrives hl run_host hpeer hmsgs'
      rw [run_run] at hW'
      exact ⟨l', W', .single hstep, hW'⟩
    | probe cb => cases hfound
    | notify id pt => cases hfound

end Mirrored

end

end Machine
