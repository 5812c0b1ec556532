import LibDht.Loopback.Relaying

/-!
# Processes and the network of messages in one state

A machine mirrors a network of messages when the nodes are in the same states, and the
connections of the processes are those that some wires say, which carry the messages in
flight. When a node starts an operation by itself, the network takes the same steps; a probe,
a connection that reaches a listener and one that is closed are none.
-/

open Function Relation

namespace Machine

/-- The number of serials that the process `i` has given. -/
def next (m : Machine) (i : HashType) : ℕ :=
  match m.host i with
  | some h => h.process.net.nextSerial
  | none => 0

/-- The machine and the network are in the same state, and the wires `W` say what the
connections mean. -/
structure Mirrored (port : HashType → UInt16) (m : Machine) (l : Located) (W : Wires) :
    Prop where
  peer : ∀ i, l.net.peer i = (m.host i).map fun h => { node := h.process.node, joined := h.entered }
  ports : ∀ i j, m.host i ≠ none → m.host j ≠ none → port i = port j → i = j
  shows : ∀ i h, m.host i = some h → Shows h.process.net (W.row i)
  wired : Wired port m.next m.links W
  msgs : l.net.msgs = W.msgs.map Prod.snd

/-- The processes of the machine run, and they are in the same state as the network. -/
structure Refines (port : HashType → UInt16) (m : Machine) (l : Located) : Prop where
  running : ∀ i h, m.host i = some h → h.process.net.crashed = false
  mirrored : ∃ W, Mirrored port m l W

section

variable {port : HashType → UInt16} {m m' : Machine} {l l' : Located} {W W' : Wires}
  {i : HashType} {p q : NodeProcess} {e e' : Bool}

theorem run_host :
  (m.run i e q).host i = some { process := q, entered := e }
  := update_self ..

theorem run_host_of_ne {j : HashType} (h : j ≠ i) :
  (m.run i e q).host j = m.host j
  := update_of_ne h ..

theorem run_run :
  (m.run i e p).run i e' q = m.run i e' q
  := by
  rw [run, run, run]
  dsimp only
  rw [update_idem]

theorem next_of_host {h : Host} (hi : m.host i = some h) :
  m.next i = h.process.net.nextSerial
  := by
  rw [next, hi]

theorem next_run :
  (m.run i e q).next = update m.next i q.net.nextSerial
  := by
  funext j
  by_cases hj : j = i
  · subst hj
    rw [update_self, next_of_host run_host]
  · rw [update_of_ne hj, next, next, run_host_of_ne hj]

namespace Mirrored

theorem peer_of_host (h : Mirrored port m l W) (hp : m.host i = some { process := p, entered := e }) :
  l.net.peer i = some { node := p.node, joined := e }
  := by
  rw [h.peer, hp, Option.map_some]

theorem shows_host (h : Mirrored port m l W) (hp : m.host i = some { process := p, entered := e }) :
  Shows p.net (W.row i)
  := h.shows i _ hp

/-- One process runs, and all else stays the same but for links and messages. -/
theorem run (links : List Link) (h : Mirrored port m l W)
    (hports : ∀ j, m.host j ≠ none → port j = port i → j = i)
    (hpeer : l'.net.peer = update l.net.peer i (some { node := q.node, joined := e }))
    (hshows : Shows q.net (W'.row i)) (hother : ∀ j, j ≠ i → W'.row j = W.row j)
    (hwired : Wired port (update m.next i q.net.nextSerial) links W')
    (hmsgs : l'.net.msgs = W'.msgs.map Prod.snd) :
  Mirrored port { m.run i e q with links := links } l' W'
  := by
  constructor
  · intro j
    rw [hpeer]
    by_cases hj : j = i
    · subst hj
      rw [update_self, run_host, Option.map_some]
    · rw [update_of_ne hj, run_host_of_ne hj, h.peer]
  · intro j k hj hk heq
    by_cases hji : j = i
    · by_cases hki : k = i
      · rw [hji, hki]
      · rw [run_host_of_ne hki] at hk
        rw [hji] at heq ⊢
        exact (hports k hk heq.symm).symm
    · rw [run_host_of_ne hji] at hj
      by_cases hki : k = i
      · rw [hki] at heq ⊢
        exact hports j hj heq
      · rw [run_host_of_ne hki] at hk
        exact h.ports j k hj hk heq
  · intro j host hj
    by_cases hji : j = i
    · subst hji
      rw [run_host] at hj
      cases hj
      apply hshows
    · rw [run_host_of_ne hji] at hj
      rw [hother j hji]
      apply h.shows j host hj
  · have hnext : ({ m.run i e q with links := links } : Machine).next
        = update m.next i q.net.nextSerial := next_run
    rw [hnext]
    apply hwired
  · apply hmsgs

theorem ports_of_host (h : Mirrored port m l W) (hp : m.host i ≠ none) :
  ∀ j, m.host j ≠ none → port j = port i → j = i
  := by
  intro j hj heq
  exact h.ports j i hj hp heq

/-- One process runs, with its node in the same state, and no message is sent or arrives. -/
theorem stutter (links : List Link) (h : Mirrored port m l W)
    (hp : m.host i = some { process := p, entered := e }) (hnode : q.node = p.node) (hshows : Shows q.net (W'.row i))
    (hother : ∀ j, j ≠ i → W'.row j = W.row j)
    (hwired : Wired port (update m.next i q.net.nextSerial) links W')
    (hmsgs : W'.msgs = W.msgs) :
  Mirrored port { m.run i e q with links := links } l W'
  := by
  apply h.run links (h.ports_of_host (by rw [hp]; apply Option.some_ne_none)) _ hshows hother hwired
  · rw [hmsgs, h.msgs]
  · rw [hnode, ← h.peer_of_host hp, update_eq_self]

/-- The serials that a process has given are those that it had given. -/
theorem next_same (hp : m.host i = some { process := p, entered := e })
    (hnext : q.net.nextSerial = p.net.nextSerial) :
  update m.next i q.net.nextSerial = m.next
  := by
  have hold : m.next i = p.net.nextSerial := next_of_host hp
  rw [hnext, ← hold, update_eq_self]

end Mirrored

end

/-! ### What a process sends -/

section

variable {port : HashType → UInt16} {i : HashType} {sent : List Sent} {J : Set HashType} {s : NodeSelf}

/-- A message that a process may send by itself. -/
def Sendable (port : HashType → UInt16) (a : Sent) : Prop :=
  (∀ cb, a.cb = some cb → cb.Local) ∧ ∃ n, a.dest = some n
    ∧ ((∃ cb, a = .alive n cb) ∨ (n.IP, n.port) = (0x7F000001, port n.id))

theorem sendable_of_ok {a : Sent} (h : SentOk J i a)
    (hdest : ∀ n, a.dest = some n → (n.IP, n.port) = (0x7F000001, port n.id)) :
  Sendable port a
  := by
  cases a with
  | findSuccessor dest id cb =>
    refine ⟨?_, dest, rfl, Or.inr (hdest dest rfl)⟩
    rintro cb' hcb' d rfl
    obtain rfl := Option.some.inj hcb'
    exact h.2.1
  | predecessor dest cb =>
    refine ⟨?_, dest, rfl, Or.inr (hdest dest rfl)⟩
    rintro cb' hcb' d rfl
    obtain rfl := Option.some.inj hcb'
    cases h.2
  | notify dest id p => exact ⟨nofun, dest, rfl, Or.inr (hdest dest rfl)⟩
  | alive dest cb => exact ⟨nofun, dest, rfl, Or.inl ⟨cb, rfl⟩⟩
  | reply data node hops => exact absurd h not_false
  | useFreed => exact absurd h not_false

theorem mem_dialledBy {a : Sent} {n : NodeInfo} (ha : a ∈ sent) (hdest : a.dest = some n) :
  (i, n) ∈ dialledBy i sent
  := by
  apply List.mem_filterMap.mpr
  use a, ha
  cases a with
  | reply data node hops => cases hdest
  | useFreed => cases hdest
  | _ =>
    obtain rfl := Option.some.inj hdest
    rfl

/-- The messages are routed one by one. -/
theorem route_of_sendable (h : ∀ a ∈ sent, Sendable port a) :
  route i [] sent = sent.filterMap (Sent.request i [])
  := by
  have hnone : sent.filterMap (Sent.answer []) = [] := by
    apply List.filterMap_eq_nil_iff.mpr
    intro a ha
    obtain ⟨-, n, hdest, -⟩ := h a ha
    cases a with
    | reply data node hops => cases hdest
    | _ => rfl
  rw [route, hnone, List.take_nil, List.append_nil]

/-- What leads to a node on the machine is its port. -/
theorem reaches_loopback {n : NodeInfo} (h : (Places.onLoopback port).Reaches i n) :
  (n.IP, n.port) = (0x7F000001, port n.id)
  := by
  rcases h with h | h <;> rw [h] <;> rfl

theorem mayTell_loopback (i : HashType) (frames : List Frame) :
  (Places.onLoopback port).MayTell i frames
  := Or.inl rfl

end

section

variable {port : HashType → UInt16} {c : HashType} {m : Machine} {l l' : Located} {W : Wires}
  {i : HashType} {p q : NodeProcess} {q' : Process Outbox} {e e' : Bool}

/-- The runs of the network that the machine is compared with. -/
abbrev Runs (port : HashType → UInt16) (c : HashType) : Located → Prop :=
  Located.Reachable (Places.onLoopback port) (Places.onLoopback port).MayTell c

/-- The steps of that network. -/
abbrev Moves (port : HashType → UInt16) : Located → Located → Prop :=
  Located.Step (Places.onLoopback port) (Places.onLoopback port).MayTell

namespace Mirrored

/-- A process sends what it sends over messages. -/
theorem sends (h : Mirrored port m l W) (hp : m.host i = some { process := p, entered := e })
    (hlike : Like p.node.self (fun x o => x = sendAll p.node p.net o.sent) q q')
    (hsent : ∀ a ∈ q'.net.sent, Sendable port a)
    (hpeer : l'.net.peer = update l.net.peer i (some { node := q'.node, joined := e' }))
    (hmsgs : l'.net.msgs = l.net.msgs ++ route i [] q'.net.sent) :
  ∃ W', Mirrored port (m.run i e' q) l' W'
  := by
  have hnext : m.next i = p.net.nextSerial := next_of_host hp
  obtain ⟨W', hwired, hsends⟩ := h.wired.sentAll hnext (h.shows_host hp) p.node hsent
  have hnet : q.net = sendAll p.node p.net q'.net.sent := hlike.net
  rw [← hnet] at hwired hsends
  use W'
  apply h.run m.links (h.ports_of_host (by rw [hp]; apply Option.some_ne_none))
  · rw [hpeer, hlike.node]
  · exact hsends.shows
  · exact hsends.other
  · exact hwired
  · rw [hmsgs, route_of_sendable hsent, hsends.msgs, h.msgs]

/-- A process runs an operation, and the network does. -/
theorem operates (h : Mirrored port m l W) (hl : Runs port c l)
    (hp : m.host i = some { process := p, entered := true })
    (hlike : Like p.node.self (fun x o => x = sendAll p.node p.net o.sent) q q')
    (hrunning : Running c l.net.Joined i q')
    (hstep : Moves port l (l.act i true [] l.net.msgs q')) :
  ∃ W', Mirrored port (m.run i true q) (l.act i true [] l.net.msgs q') W'
  := by
  have hright := (hl.step hstep).invariant.dialled
  apply h.sends hp hlike
  · intro a ha
    apply sendable_of_ok (hrunning.sent a ha)
    intro n hn
    apply reaches_loopback
    apply hright i n
    exact List.mem_append_right _ (mem_dialledBy ha hn)
  · rfl
  · rfl

/-- The process that a timer has fired at. -/
theorem timer (h : Mirrored port m l W) (hl : Runs port c l)
    (hp : m.host i = some { process := p, entered := true }) (t : Timer) :
  ∃ l' W', Moves port l l' ∧ Mirrored port (m.run i true (t.fire p)) l' W'
  := by
  have hpeer := h.peer_of_host hp
  have hrunning := hl.net_reachable.invariant.running hpeer
  have hstep : Moves port l (l.act i true [] l.net.msgs (t.fire (idle p.node))) := .timer t hpeer
  have hR := selfOnly_nodeNet.mirrors p.node p.net
  have hlike : Like p.node.self (fun x o => x = sendAll p.node p.net o.sent) (t.fire p)
      (t.fire (idle p.node)) := by
    cases t with
    | stabilise => exact nodeNetworkStabalize_like hR (like_idle p)
    | updateSuccs => exact nodeUpdateSuccs_like hR (like_idle p)
    | fixFingers => exact nodeFixFingers_like hR (like_idle p)
  obtain ⟨W', hW'⟩ := h.operates hl hp hlike (hrunning.fire t) hstep
  exact ⟨_, W', hstep, hW'⟩

/-- A lookup that the application starts. -/
theorem findSuccessor (h : Mirrored port m l W) (hl : Runs port c l)
    (hp : m.host i = some { process := p, entered := true }) (id : HashType) (arg : ℕ) :
  ∃ l' W', Moves port l l'
    ∧ Mirrored port (m.run i true (nodeFindSuccessor p id (.app arg)).2) l' W'
  := by
  have hpeer := h.peer_of_host hp
  have hrunning := hl.net_reachable.invariant.running hpeer
  have hstep : Moves port l
      (l.act i true [] l.net.msgs (nodeFindSuccessor (idle p.node) id (.app arg)).2) :=
    .lookup id arg hpeer
  have hlike := nodeFindSuccessor_like (selfOnly_nodeNet.mirrors p.node p.net) (like_idle p) id
    (.app arg)
  have hfind : Running c l.net.Joined i (nodeFindSuccessor (idle p.node) id (.app arg)).2 := by
    apply hrunning.find_successor
    · apply hrunning.mem
    · rfl
    · exact fun _ => rfl
  obtain ⟨W', hW'⟩ := h.operates hl hp hlike hfind hstep
  exact ⟨_, W', hstep, hW'⟩

/-- A node in a network is told so: it runs its maintenance. -/
theorem joined (h : Mirrored port m l W) (hl : Runs port c l)
    (hp : m.host i = some { process := p, entered := true }) (arg : ℕ) :
  ∃ l' W', ReflTransGen (Moves port) l l'
    ∧ Mirrored port (m.run i true (nodeNetworkJoined p arg)) l' W'
  := by
  have hnext := next_same (q := p.emit (.joined arg)) hp rfl
  have h₀ : Mirrored port (m.run i true (p.emit (.joined arg))) l W := by
    have hshows : Shows p.net (W.row i) := h.shows_host hp
    refine h.stutter m.links hp rfl hshows (fun j _ => rfl) ?_ rfl
    rw [hnext]
    apply h.wired
  obtain ⟨l₁, W₁, hstep₁, h₁⟩ := h₀.timer hl run_host .stabilise
  have hl₁ := hl.step hstep₁
  rw [run_run] at h₁
  obtain ⟨l₂, W₂, hstep₂, h₂⟩ := h₁.timer hl₁ run_host .updateSuccs
  have hl₂ := hl₁.step hstep₂
  rw [run_run] at h₂
  obtain ⟨l₃, W₃, hstep₃, h₃⟩ := h₂.timer hl₂ run_host .fixFingers
  rw [run_run] at h₃
  exact ⟨l₃, W₃, ((ReflTransGen.single hstep₁).tail hstep₂).tail hstep₃, h₃⟩

end Mirrored

/-- An operation that only probes: the node stays as it is, and nothing else is sent. -/
structure Probes (s : NodeSelf) (q : Process Outbox) : Prop where
  node : q.node = s
  sent : ∀ a ∈ q.net.sent, ∃ n cb, a = .alive n cb

theorem Probes.nodeCheckNode {s : NodeSelf} (h : Probes s q') (n : NodeInfo) (cb : CheckCb) :
  Probes s (nodeCheckNode q' n cb)
  := by
  constructor
  · apply h.node
  · intro a ha
    change a ∈ q'.net.sent ++ [.alive n cb] at ha
    rcases List.mem_append.mp ha with ha | ha
    · apply h.sent a ha
    · exact ⟨n, cb, List.mem_singleton.mp ha⟩

theorem probes_checkPredecessor (s : NodeSelf) :
  Probes s (nodeCheckPredecessor (idle s))
  := by
  have hidle : Probes s (idle s) := ⟨rfl, nofun⟩
  rw [nodeCheckPredecessor]
  split_ifs
  · apply hidle
  · apply hidle.nodeCheckNode

theorem probes_checkSuccessors (s : NodeSelf) :
  Probes s (nodeCheckSuccessors (idle s))
  := by
  have hidle : Probes s (idle s) := ⟨rfl, nofun⟩
  rw [nodeCheckSuccessors]
  generalize idle s = q at hidle ⊢
  induction List.finRange numOfSuccs generalizing q with
  | nil => apply hidle
  | cons k ks ih =>
    rw [List.foldl_cons]
    apply ih
    have htouch : Probes s (q.touch k.val) := ⟨hidle.node, hidle.sent⟩
    dsimp only
    split_ifs
    · apply htouch.nodeCheckNode
    · apply htouch

namespace Mirrored

/-- A process probes others. The network does nothing. -/
theorem probes (h : Mirrored port m l W) (hp : m.host i = some { process := p, entered := e })
    (hlike : Like p.node.self (fun x o => x = sendAll p.node p.net o.sent) q q')
    (hprobes : Probes p.node q') :
  ∃ W', Mirrored port (m.run i e q) l W'
  := by
  have hsent : ∀ a ∈ q'.net.sent, Sendable port a := by
    intro a ha
    obtain ⟨n, cb, rfl⟩ := hprobes.sent a ha
    exact ⟨nofun, n, rfl, Or.inl ⟨cb, rfl⟩⟩
  apply h.sends hp hlike hsent
  · rw [hprobes.node, ← h.peer_of_host hp, update_eq_self]
  · have hnone : q'.net.sent.filterMap (Sent.request i []) = [] := by
      apply List.filterMap_eq_nil_iff.mpr
      intro a ha
      obtain ⟨n, cb, rfl⟩ := hprobes.sent a ha
      rfl
    rw [route_of_sendable hsent, hnone, List.append_nil]

/-- What a node in a network starts by itself. -/
theorem own (h : Mirrored port m l W) (hl : Runs port c l)
    (hp : m.host i = some { process := p, entered := true }) (hrun : p.net.crashed = false)
    {o : Occurrence} (ho : o.Own) :
  ∃ l' W', ReflTransGen (Moves port) l l' ∧ Mirrored port (m.run i true (p.occur o)) l' W'
  := by
  rw [Process.occur_of_running hrun]
  have hR := selfOnly_nodeNet.mirrors p.node p.net
  have htimer : ∀ t : Timer, ∃ l' W', ReflTransGen (Moves port) l l'
      ∧ Mirrored port (m.run i true (t.fire p)) l' W' := by
    intro t
    obtain ⟨l', W', hstep, hW'⟩ := h.timer hl hp t
    exact ⟨l', W', .single hstep, hW'⟩
  cases o with
  | stabilise => exact htimer .stabilise
  | fixFingers => exact htimer .fixFingers
  | updateSuccs => exact htimer .updateSuccs
  | checkPred =>
    obtain ⟨W', hW'⟩ := h.probes hp (nodeCheckPredecessor_like hR (like_idle p))
      (probes_checkPredecessor p.node)
    exact ⟨l, W', .refl, hW'⟩
  | checkSuccs =>
    obtain ⟨W', hW'⟩ := h.probes hp (nodeCheckSuccessors_like hR (like_idle p))
      (probes_checkSuccessors p.node)
    exact ⟨l, W', .refl, hW'⟩
  | joined arg => exact h.joined hl hp arg
  | findSuccessor id arg =>
    obtain ⟨l', W', hstep, hW'⟩ := h.findSuccessor hl hp id arg
    exact ⟨l', W', .single hstep, hW'⟩
  | _ => exact absurd ho not_false

end Mirrored

end

/-! ### Connections that come up and go -/

section

variable {port : HashType → UInt16} {m : Machine} {l : Located} {W : Wires} {link : Link}
  {p q : NodeProcess} {e e' : Bool} {j k : Fin maxOpenConnections} {b b' : Bufferevent} {v : ℕ}

theorem far_of_taken (hv : link.taken = some v) :
  link.far = some (link.server, v)
  := by
  rw [Link.far, hv, Option.map_some]

namespace Mirrored

/-- The connection of the client of a link. -/
theorem conn_near (h : Mirrored port m l W) (hl : link ∈ m.links)
    (hp : m.host link.client = some { process := p, entered := e })
    (hb : Connected p k link.made b) :
  ∃ u, W.row link.client link.made = some (.made u (0x7F000001, port link.server))
  := by
  obtain ⟨x, hx⟩ := (h.shows_host hp).of_connected hb
  obtain ⟨u, rfl⟩ := h.wired.near link hl x hx
  exact ⟨u, hx⟩

/-- The connection of the server of a link. -/
theorem conn_far (h : Mirrored port m l W) (hl : link ∈ m.links)
    (hq : m.host link.server = some { process := q, entered := e' }) (hv : link.taken = some v)
    (hb' : Connected q j v b') :
  W.row link.server v = some (.taken j b'.output)
  := by
  have hshows : Shows q.net (W.row link.server) := h.shows_host hq
  obtain ⟨x, hx⟩ := hshows.of_connected hb'
  obtain ⟨j', out, rfl⟩ := h.wired.far link hl _ x (far_of_taken hv) hx
  obtain ⟨rfl, -, rfl⟩ := hshows.serves hb' hx
  apply hx

/-- A connection reaches a listener. The network does nothing. -/
theorem accepts (h : Mirrored port m l W) {i d : HashType} {s : ℕ}
    (hp : m.host i = some { process := p, entered := e }) (hb : Connected p k s b)
    (hto : (p.net.connections k).sin = (0x7F000001, port d))
    (hnew : ∀ l ∈ m.links, l.client = i → l.made ≠ s)
    (hq : m.host d = some { process := q, entered := e' }) (hrun : q.net.crashed = false) :
  (q.occur (.accept 0x7F000001)).net.crashed = false
    ∧ ∃ W', Mirrored port { m.run d e' (q.occur (.accept 0x7F000001)) with
        links := m.links ++ [seen i s d q (q.occur (.accept 0x7F000001))] } l W'
  := by
  have hshows : Shows p.net (W.row i) := h.shows_host hp
  obtain ⟨u, hu⟩ : ∃ u, W.conn (i, s) = some (.made u (0x7F000001, port d)) := by
    obtain ⟨x, hx⟩ := hshows.of_connected hb
    cases x with
    | made u sin =>
      obtain ⟨hdials, -⟩ := hshows.dials hb hx
      rw [hdials.sin] at hto
      rw [hto] at hx
      exact ⟨u, hx⟩
    | taken j out =>
      obtain ⟨-, hserves, -⟩ := hshows.serves hb hx
      rw [hserves.sin] at hto
      cases hto
  have hnext : m.next d = q.net.nextSerial := next_of_host hq
  have hnear : ∀ l' ∈ m.links, l'.near ≠ (i, s) := by
    intro l' hl' heq
    exact hnew l' hl' (congrArg Prod.fst heq) (congrArg Prod.snd heq)
  obtain ⟨hnode, hcrashed, hcases⟩ := occur_accept (h.shows_host hq) hrun
  use hcrashed
  generalize q.occur (.accept 0x7F000001) = q' at hnode hcases ⊢
  rcases hcases with ⟨hle, hnone, hshows'⟩ | ⟨hserial, j, hj, hshows'⟩
  · have hseen : (seen i s d q q').taken = none := by
      rw [seen]
      dsimp only
      rw [if_neg (not_exists.mpr hnone)]
    refine ⟨W, h.stutter _ hq hnode hshows' (fun j _ => rfl) ?_ rfl⟩
    have hle' : m.next d ≤ q'.net.nextSerial := hnext ▸ hle
    apply (h.wired.of_le (Wired.le_update hle')).link (l := seen i s d q q') rfl (u := u) hu hnear
    intro t ht
    rw [Link.far, hseen] at ht
    cases ht
  · have htaken : (seen i s d q q').taken = some q.net.nextSerial := by
      rw [seen]
      dsimp only
      rw [if_pos ⟨j, hj⟩]
    have hseen : (seen i s d q q').far = some (d, q.net.nextSerial) := far_of_taken htaken
    have hle : m.next d ≤ q'.net.nextSerial := by rw [hnext, hserial]; apply Nat.le_succ
    have hfresh := h.wired.fresh (e := (d, q.net.nextSerial)) (le_of_eq hnext)
    have hlt : q.net.nextSerial < update m.next d q'.net.nextSerial d := by
      rw [update_self, hserial]
      apply Nat.lt_succ_self
    refine ⟨W.put (d, q.net.nextSerial) (some (.taken j [])) W.msgs,
      h.stutter _ hq hnode ?_ (fun j hj => Wires.row_put_of_ne hj) ?_ rfl⟩
    · rw [Wires.row_put]
      apply hshows'
    · have htaken := h.wired.take (e := (d, q.net.nextSerial)) (le_of_eq hnext)
        (Wired.le_update hle) hlt j
      apply htaken.link (l := seen i s d q q') rfl (u := u) _ hnear
      · intro t ht
        rw [hseen] at ht
        obtain rfl := Option.some.inj ht
        exact ⟨hfresh.2.2, hlt, j, Wires.conn_put_self⟩
      · have hne : ((i, s) : Endpoint) ≠ (d, q.net.nextSerial) := by
          intro heq
          rw [heq, hfresh.1] at hu
          cases hu
        change (W.put _ _ _).conn (i, s) = _
        rw [Wires.conn_put_of_ne hne]
        apply hu

/-- The client has closed a connection. -/
theorem clientCloses (h : Mirrored port m l W) (hl : link ∈ m.links)
    (hp : m.host link.client = some { process := p, entered := e })
    (hclosed : ∀ k, p.net.serialIn k ≠ some link.made)
    (hq : m.host link.server = some { process := q, entered := e' }) (hv : link.taken = some v)
    (hb' : Connected q j v b') :
  let q' := q.occur (.event j (bevEventReading ||| bevEventEof))
  q'.net.crashed = false ∧ ∃ W', Mirrored port (m.run link.server e' q') l W'
  := by
  have hfar := far_of_taken hv
  have hnone : W.conn link.near = none := (h.shows_host hp).eq_none hclosed
  obtain ⟨hnode, hnext, hcrashed, hshows⟩ :=
    occur_clientClosed (h.shows_host hq) hb' (h.conn_far hl hq hv hb')
  dsimp only
  refine ⟨hcrashed, W.put (link.server, v) none W.msgs,
    h.stutter m.links hq hnode ?_ (fun j hj => Wires.row_put_of_ne hj) ?_ rfl⟩
  · rw [Wires.row_put]
    apply hshows
  · rw [next_same hq hnext]
    apply h.wired.close _ _ (fun _ _ _ hm => hm)
    -- what is forwarded is forwarded for a client that waits
    rintro l' hl' hends t ht ⟨s, data, j', hawaits, hcb⟩
    obtain ⟨l₁, h₁, v₁, _, id, data₁, sin, hd, hfar₁, -, -, hnear₁, -⟩ :=
      h.wired.forwards _ data _ hawaits hcb
    obtain rfl : t.2 = v₁ := Option.some.inj (congrArg IncomingHandlerData.asker hd)
    obtain rfl := h.wired.far_inj l' hl' l₁ h₁ t ht hfar₁
    rcases hends with hends | hends
    · rw [hends] at hnear₁
      have hconn := h.conn_far hl hq hv hb'
      rw [Wires.row, hnear₁] at hconn
      cases hconn
    · obtain rfl := h.wired.far_inj link hl l' hl' _ hfar hends
      rw [hnone] at hnear₁
      cases hnear₁

/-- The server has closed a connection. -/
theorem serverCloses (h : Mirrored port m l W) (hl : link ∈ m.links)
    (hp : m.host link.client = some { process := p, entered := e })
    (hb : Connected p k link.made b)
    (hq : m.host link.server = some { process := q, entered := e' }) (hv : link.taken = some v)
    (hclosed : ∀ j, q.net.serialIn j ≠ some v) :
  let p' := p.occur (.event k (bevEventReading ||| bevEventEof))
  p'.net.crashed = false ∧ ∃ W', Mirrored port (m.run link.client e p') l W'
  := by
  have hfar := far_of_taken hv
  have hnone : W.conn (link.server, v) = none := (h.shows_host hq).eq_none hclosed
  obtain ⟨u, hu⟩ := h.conn_near hl hp hb
  obtain ⟨hnode, hnext, hcrashed, hshows⟩ := occur_serverClosed (h.shows_host hp) hb hu
  dsimp only
  use hcrashed
  rcases hshows with hshows | ⟨-, hshows⟩
  · refine ⟨W, h.stutter m.links hp hnode hshows (fun j hj => rfl) ?_ rfl⟩
    rw [next_same hp hnext]
    apply h.wired
  · refine ⟨W.put link.near none W.msgs,
      h.stutter m.links hp hnode ?_ (fun j hj => Wires.row_put_of_ne hj) ?_ rfl⟩
    · rw [Link.near, Wires.row_put]
      apply hshows
    · rw [next_same hp hnext]
      apply h.wired.close _ _ (fun _ _ _ hm => hm)
      intro l' hl' hends t ht hpending
      obtain ⟨-, -, -, -, j, htaken⟩ := h.wired.of_pending hpending
      rcases hends with hends | hends
      · obtain rfl := h.wired.near_inj l' hl' link hl hends
        rw [hfar] at ht
        obtain rfl := Option.some.inj ht
        rw [hnone] at htaken
        cases htaken
      · rw [hends] at ht
        obtain rfl := Option.some.inj ht
        rw [Wires.row] at hu
        rw [Link.near, hu] at htaken
        cases htaken

end Mirrored

end

end Machine
