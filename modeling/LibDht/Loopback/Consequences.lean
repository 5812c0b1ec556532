import LibDht.Loopback.Refinement

/-!
# What holds of processes that send each other bytes

What holds in every network of messages holds of the processes on a machine: those that have
entered form one ordered ring, and every entry that they hold leads to one of them. And what
the network of messages takes for granted is true of the connections: the answer to a lookup
that was forwarded is written to the connection that the lookup came in on, with one hop
more.
-/

open Function

namespace Machine

/-- The nodes whose processes have entered the network. -/
def Entered (m : Machine) : Set HashType :=
  { i | ∃ p, m.host i = some { process := p, entered := true } }

/-- The identifier of the first successor in use of a process. -/
def succ (m : Machine) (i : HashType) : HashType :=
  match m.host i with
  | some h => h.process.node.firstSucc.id
  | none => i

section

variable {port : HashType → UInt16} {c : HashType} {m : Machine} {l : Located} {W : Wires}

namespace Mirrored

theorem joined_eq (h : Mirrored port m l W) :
  l.net.Joined = m.Entered
  := by
  ext i
  constructor
  · rintro ⟨s, hs⟩
    rw [h.peer] at hs
    obtain ⟨⟨p, entered⟩, hi, hhost⟩ := Option.map_eq_some_iff.mp hs
    obtain rfl : entered = true := congrArg Peer.joined hhost
    exact ⟨p, hi⟩
  · rintro ⟨p, hp⟩
    exact ⟨p.node, h.peer_of_host hp⟩

theorem succ_eq (h : Mirrored port m l W) :
  l.net.next = m.succ
  := by
  funext i
  rw [Net.next, h.peer, succ]
  cases m.host i <;> rfl

end Mirrored

/-- Processes that join from one, on connections that come up in any order, with requests and
replies that are late, overtake each other or find no slot: those that have entered are one
ordered ring. The first successor of one that has entered has entered, and its address is
right; following first successors leads to the creator; and the way from the creator back to
it is the only cycle, and goes once round the circle of identifiers, clockwise. -/
theorem Reachable.one_ring (h : Reachable port c m) :
  (∀ i p, m.host i = some { process := p, entered := true } →
      p.node.firstSucc = (Places.onLoopback port).entry p.node.firstSucc.id
        ∧ p.node.firstSucc.id ∈ m.Entered)
    ∧ (∀ i ∈ m.Entered, ∃ k, m.succ^[k] i = c)
    ∧ ∃ r > 0, m.succ^[r] c = c
      ∧ StrictMonoOn (fun k => (m.succ^[k] c - c).toNat) (Set.Iio r)
      ∧ ∀ i ∈ m.Entered, (∃ k > 0, m.succ^[k] i = i) → ∃ k < r, m.succ^[k] c = i
  := by
  obtain ⟨-, -, l, -, hl, hrefines⟩ := h.run_beside
  obtain ⟨W, hW⟩ := hrefines.mirrored
  have hinv := hl.net_reachable.invariant
  have hclimb := hinv.climbs
  rw [hW.joined_eq, hW.succ_eq] at hclimb
  refine ⟨?_, ?_, minimalPeriod m.succ c, hclimb.period_pos, ?_, ?_, ?_⟩
  · intro i p hp
    have hpeer := hW.peer_of_host hp
    have hrun := hinv.running hpeer
    have hknown : Known l.net.Joined p.node.firstSucc := hrun.known_firstSucc
    have hsound := (hl.invariant.peer i _ hpeer).succ 0
    rw [hW.joined_eq] at hknown
    refine ⟨?_, hknown.id_mem⟩
    have hfirst : p.node.firstSucc = p.node.successor 0 := firstSucc_of_alive_zero hrun.alive_zero
    rw [hfirst] at hknown ⊢
    rcases hsound with hnull | hown | hright
    · exact absurd (congrArg NodeInfo.IP hnull) hknown.IP_ne
    · dsimp only at hown
      rw [hown]
      rfl
    · exact hright
  · intro i hi
    obtain ⟨k, hk⟩ := hclimb.reaches_root hi
    use k + 1
  · apply isPeriodicPt_minimalPeriod
  · apply hclimb.strictMonoOn_height
  · rintro i hi ⟨k, hk, hp⟩
    apply hclimb.mem_cycle_of_periodic hi hk hp

/-- When `9` has joined, first successors lead from it to `5`. -/
theorem one_ring_relaying :
  9 ∈ relaying.Entered ∧ ∃ k, relaying.succ^[k] 9 = 5
  := by
  have hmem : 9 ∈ relaying.Entered := ⟨nine₂, rfl⟩
  exact ⟨hmem, (Reachable.one_ring reachable_relaying).2.1 9 hmem⟩

/-- The slot of a connection that waits for a reply, as the wires say. -/
theorem Mirrored.awaits (h : Mirrored port m l W) {i : HashType} {p : NodeProcess} {e : Bool}
    (hp : m.host i = some { process := p, entered := e }) {k : Fin maxOpenConnections} {s : ℕ}
    {b : Bufferevent} (hb : Connected p k s b) {data : NodeFoundCbData}
    (harg : (p.net.connections k).upperCbArg = some (.found data)) :
  W.Awaits (i, s) data
  := by
  have hshows : Shows p.net (W.row i) := h.shows_host hp
  obtain ⟨x, hx⟩ := hshows.of_connected hb
  cases x with
  | made u sin =>
    obtain ⟨hdials, -⟩ := hshows.dials hb hx
    refine ⟨u, sin, hx, ?_⟩
    rw [hdials.arg] at harg
    cases u <;> cases harg <;> rfl
  | taken j out =>
    obtain ⟨-, hserves, -⟩ := hshows.serves hb hx
    rw [hserves.arg] at harg
    cases harg

/-- A process that has asked another one for a request that came in: when the reply arrives,
the connection on which the request came in is still in the slot that is remembered, nothing
has been written to it before, and the node that is read is written to it, with one hop
more. -/
theorem Reachable.relayed_right (h : Reachable port c m) {link : Link} (hlink : link ∈ m.links)
    {p q : NodeProcess} {e e' : Bool} {k j : Fin maxOpenConnections} {b b' : Bufferevent} {v : ℕ}
    (hp : m.host link.client = some { process := p, entered := e })
    (hb : Connected p k link.made b)
    (hq : m.host link.server = some { process := q, entered := e' }) (hv : link.taken = some v)
    (hb' : Connected q j v b') (hout : b'.output ≠ []) {data : NodeFoundCbData}
    {d : IncomingHandlerData} (harg : (p.net.connections k).upperCbArg = some (.found data))
    (hcb : data.cb = .successorFoundForRemote d) :
  ∃ j₁ v₁, d = { connection := j₁.val, asker := some v₁ }
    ∧ (∃ b₁, Connected p j₁ v₁ b₁ ∧ b₁.output = [])
    ∧ ∃ n hops, (∀ byte, readFound (data.node, data.hops) byte b'.output = (n, hops))
      ∧ ∃ b₂, ((p.occur (.data k b'.output)).net.connections j₁).bev = some b₂ ∧ b₂.serial = v₁
        ∧ b₂.output = successorReply n (hops + 1)
  := by
  obtain ⟨-, -, l, -, hl, hrefines⟩ := h.run_beside
  obtain ⟨W, hW⟩ := hrefines.mirrored
  have hshows : Shows p.net (W.row link.client) := hW.shows_host hp
  have hawaits : W.Awaits link.near data := hW.awaits hp hb harg
  obtain ⟨l₁, h₁, v₁, j₁, -, -, -, rfl, hfar₁, -, htaken₁, -⟩ :=
    hW.wired.forwards link.near data d hawaits hcb
  obtain ⟨u, sin, hu, hfound⟩ := hawaits
  have hconn := hW.conn_far hlink hq hv hb'
  have hpend := hW.not_pending hlink hv hu hconn hout
  obtain ⟨hne, -⟩ := hW.wired.forwards_ne hpend ⟨u, sin, hu, hfound⟩ hcb rfl h₁ hfar₁
  have hs₁ : v₁ ≠ link.made := fun heq => hne (congrArg (Prod.mk link.client) heq)
  have hreads : ∃ n hops, ∀ byte, readFound (data.node, data.hops) byte b'.output = (n, hops) := by
    rcases hW.wired.reply link hlink _ j _ (far_of_taken hv) hconn hout u _ hu with
      ⟨cb, tail, rfl, -⟩ | ⟨data', n, hops, msg, hfound', hread, -, -⟩
    · cases hfound
    · rw [hfound] at hfound'
      obtain rfl := Option.some.inj hfound'
      exact ⟨n, hops, hread⟩
  obtain ⟨n, hops, hread⟩ := hreads
  obtain ⟨q₀, -, -, -, hshows₀, hoccur⟩ := occur_reply hshows hb hu hfound hout hread
  have hrow : update (W.row link.client) link.made none v₁ = some (.taken j₁ []) := by
    rw [update_of_ne hs₁]
    apply htaken₁
  obtain ⟨-, -, hshows'⟩ := hshows₀.nodeFound_answerTo hrow n (rfl : hops + 1 = hops + 1)
  refine ⟨j₁, v₁, rfl, ?_, n, hops, hread, ?_⟩
  · obtain ⟨k₁, b₁, hb₁, hserial, rfl, hserves⟩ := hshows.fits htaken₁
    obtain ⟨b₂, hb₂, henabled, -, -, houtput, -⟩ := hserves.bev
    rw [hb₁] at hb₂
    obtain rfl := Option.some.inj hb₂
    exact ⟨b₁, ⟨hb.running, hb₁, hserial, henabled⟩, houtput⟩
  · have hcb' : data.cb = answerTo j₁ v₁ := hcb
    rw [hoccur, hcb']
    obtain ⟨k₁, b₁, hb₁, hserial, hj, hserves⟩ := hshows'.fits (update_self ..)
    subst hj
    obtain ⟨b₂, hb₂, -, -, -, houtput, -⟩ := hserves.bev
    rw [hb₁] at hb₂
    obtain rfl := Option.some.inj hb₂
    exact ⟨b₁, hb₁, hserial, houtput⟩

/-- The answer of `5` to `9`, which asked for `7`, is written to the connection of `7`. -/
theorem relayed_right_relaying :
  ∃ b, ((nine₂.occur (.data 1 (successorReply ((Places.onLoopback firstPort).entry 5) 1))
      ).net.connections 0).bev = some b
    ∧ b.serial = 1 ∧ ∃ n hops, b.output = successorReply n (hops + 1)
  := by
  obtain ⟨b, hb, -⟩ : ∃ b, Connected nine₂ 1 2 b ∧ b.output = (Request.findSuccessor 7).wire :=
    connected_of (by decide +kernel) (by decide +kernel)
  obtain ⟨b', hb', hout⟩ : ∃ b, Connected five₄ 1 1 b
      ∧ b.output = successorReply ((Places.onLoopback firstPort).entry 5) 1 :=
    connected_of (by decide +kernel) (by decide +kernel)
  have hlink : { client := 9, made := 2, server := 5, taken := some 1, asked := true }
      ∈ relaying.links := by decide
  obtain ⟨data, harg, hcb⟩ : ∃ data, (nine₂.net.connections 1).upperCbArg = some (.found data)
      ∧ data.cb = .successorFoundForRemote { connection := 0, asker := some 1 } :=
    ⟨{ cb := answerTo 0 1, node := nullNode, hops := 0 }, by decide +kernel, rfl⟩
  obtain ⟨j, v, hd, -, n, hops, -, b₂, hb₂, hserial, houtput⟩ := Reachable.relayed_right
    reachable_relaying hlink rfl hb rfl rfl hb' (by rw [hout]; exact List.cons_ne_nil _ _) harg hcb
  obtain rfl : v = 1 := (Option.some.inj (congrArg IncomingHandlerData.asker hd)).symm
  obtain rfl : j = 0 := by
    apply Fin.ext
    have hj : (0 : ℤ) = (j.val : ℤ) := congrArg IncomingHandlerData.connection hd
    exact Int.natCast_inj.mp hj.symm
  rw [hout] at hb₂
  exact ⟨b₂, hb₂, hserial, n, hops, houtput⟩

end

end Machine
