import LibDht.Node.Adopt
import LibDht.Protocol.Ring

/-!
# Networks at rest

A complete stabilisation of a node asks its first successor for its predecessor, adopts
the answer as first successor when it lies between, and notifies the first successor, which
adopts the node as predecessor when it lies after the one it knows. A reachable network in
which no complete stabilisation changes anything is the ideal ring: the adopt rule and the
notify rule together force the predecessor of the first successor to be the node itself, so
that first successors are injective, and on a ring that climbs this makes them the next
nodes.
-/

open Circle Function

namespace Net

/-! ### A complete stabilisation -/

/-- The oldest message of a stabilisation arrives; a notification comes from the address
`ip`. -/
def deliver (ip : UInt32) (net : Net) : Net :=
  match net.msgs with
  | .predRequest dest f :: rest =>
    match net.peer dest with
    | some peer => { net with msgs := rest ++ [.predReply (predAnswer peer.node) 0 f] }
    | none => net
  | .predReply node hops f :: rest =>
    match net.peer f.owner with
    | some peer => { net with msgs := rest }.act f.owner peer.joined []
        (nodeFound (idle peer.node) { cb := f.cb, node := node, hops := hops })
    | none => net
  | .notify dest id port :: rest =>
    match net.peer dest with
    | some peer => { net with msgs := rest }.act dest peer.joined []
        (idle (nodeNotified peer.node { id := id, IP := ip, port := port }))
    | none => net
  | _ => net

/-- The node `i` stabilises, and the request, the reply and the notification that this sends
arrive. -/
def stabilised (net : Net) (ip : UInt32) (i : HashType) : Net :=
  match net.peer i with
  | some peer =>
    (deliver ip)^[3] (net.act i peer.joined [] (nodeNetworkStabalize (idle peer.node)))
  | none => net

/-- What a network at rest does not change: of every node the identifiers of its first
successor and its predecessor, and whether it has one. -/
def links (net : Net) (i : HashType) : Option (HashType × HashType × Bool) :=
  (net.peer i).map fun peer =>
    (peer.node.firstSucc.id, peer.node.predecessor.id, peer.node.hasPred)

variable {c : HashType} {net : Net}

/-- Each of these arrivals is a step of the network, unless there is nothing to arrive. -/
theorem deliver_step {ip : UInt32} (hip : ip ≠ 0) (net : Net) :
  deliver ip net = net ∨ Step net (deliver ip net)
  := by
  rw [deliver]
  split
  · split
    · rename_i hm _ peer hp
      right
      rw [← List.nil_append (_ :: _)] at hm
      apply Step.predRequest 0 hm hp
    · left
      rfl
  · split
    · rename_i hm _ peer hp
      right
      rw [← List.nil_append (_ :: _)] at hm
      apply Step.predReply hm hp
    · left
      rfl
  · split
    · rename_i hm _ peer hp
      right
      rw [← List.nil_append (_ :: _)] at hm
      apply Step.notify ip hip hm hp
    · left
      rfl
  · left
    rfl

/-- Nobody joins or leaves when a message of a stabilisation arrives. -/
theorem deliver_joined (ip : UInt32) (net : Net) (j : HashType) :
  ((deliver ip net).peer j).map Peer.joined = (net.peer j).map Peer.joined
  := by
  have hact : ∀ {i peer msgs p}, net.peer i = some peer →
      (({ net with msgs := msgs }.act i peer.joined [] p).peer j).map Peer.joined
        = (net.peer j).map Peer.joined := by
    intro i peer msgs p hi
    by_cases hji : j = i
    · subst hji
      simp [act, hi]
    · simp [act, update_of_ne hji]
  rw [deliver]
  split
  · split <;> rfl
  · split
    · rename_i hp
      apply hact hp
    · rfl
  · split
    · rename_i hp
      apply hact hp
    · rfl
  · rfl

theorem stabilised_joined (net : Net) (ip : UInt32) (i j : HashType) :
  ((net.stabilised ip i).peer j).map Peer.joined = (net.peer j).map Peer.joined
  := by
  rw [stabilised]
  split
  · rename_i peer hi
    simp only [iterate_succ_apply', iterate_zero_apply, deliver_joined]
    by_cases hji : j = i
    · subst hji
      simp [act, hi]
    · simp [act, update_of_ne hji]
  · rfl

/-- A complete stabilisation is part of a run. -/
theorem Reachable.stabilised (h : Reachable c net) {ip : UInt32} (hip : ip ≠ 0) {i : HashType}
    (hi : i ∈ net.Joined) :
  Reachable c (net.stabilised ip i)
  := by
  obtain ⟨s, hs⟩ := hi
  rw [Net.stabilised]
  rw [hs]
  have hdeliver : ∀ {n}, Reachable c n → Reachable c (deliver ip n) := by
    intro n hn
    rcases deliver_step hip n with heq | hstep
    · rw [heq]
      apply hn
    · apply hn.step hstep
  apply hdeliver (hdeliver (hdeliver (h.step (.timer .stabilise hs))))

end Net

/-! ### What a complete stabilisation leaves unchanged -/

namespace Net

/-- In a network of messages, stabilisation notifies the first successor it ends with. -/
theorem nodeFound_stabilizeSpFound (s : NodeSelf) (n : NodeInfo) (hops : Int16) :
  let p := nodeFound (idle s) { cb := .stabilizeSpFound, node := n, hops := hops }
  p.node = adopted s n
    ∧ p.net.sent = [.notify (adopted s n).firstSucc s.self.id s.self.port]
  := by
  obtain ⟨hnode, hnet, -⟩ :=
    nodeStabilizeSpFound_eq ((idle s).emit (.found .stabilizeSpFound n hops)) n
  use hnode
  change (nodeStabilizeSpFound ((idle s).emit (.found .stabilizeSpFound n hops)) n).net.sent = _
  rw [hnet, ← (adopted_rest s n).2.2]
  rfl

section Stabilised

variable {c i : HashType} {net : Net} {s t : NodeSelf} {ip : UInt32}

/-- The network after a complete stabilisation of `i`, whose first successor is `t`. -/
theorem stabilised_eq (h : Invariant c net) (hmsgs : net.msgs = [])
    (hs : net.peer i = some { node := s, joined := true })
    (ht : net.peer s.firstSucc.id = some { node := t, joined := true })
    {u : NodeSelf} (hu : update net.peer i (some { node := adopted s (predAnswer t), joined := true })
      (adopted s (predAnswer t)).firstSucc.id = some { node := u, joined := true }) :
  (net.stabilised ip i).peer
    = update (update net.peer i (some { node := adopted s (predAnswer t), joined := true }))
      (adopted s (predAnswer t)).firstSucc.id
      (some { node := nodeNotified u { id := i, IP := ip, port := s.self.port }, joined := true })
  := by
  have hself : s.self.id = i := (h.peer hs).self_id
  obtain ⟨hnode, hsent⟩ := nodeFound_stabilizeSpFound s (predAnswer t) 0
  have hask : net.act i true [] (nodeNetworkStabalize (idle s))
      = { net with msgs := [.predRequest s.firstSucc.id { owner := i, cb := .stabilizeSpFound }] } := by
    have hpeer : update net.peer i (some { node := s, joined := true }) = net.peer := by
      rw [← hs]
      apply update_eq_self
    have hroute : (net.act i true [] (nodeNetworkStabalize (idle s))).msgs
        = [.predRequest s.firstSucc.id { owner := i, cb := .stabilizeSpFound }] := by
      simp only [act, hmsgs]
      rfl
    exact congrArg₂ Net.mk hpeer hroute
  rw [stabilised, hs]
  simp only [iterate_succ_apply, iterate_zero_apply, hask]
  simp only [deliver, ht, hs, act, hnode, hsent, List.nil_append, route, List.filterMap_cons,
    Sent.request, List.filterMap_nil, Sent.answer, List.take_nil, List.append_nil, hu, hself]
  rfl

/-- The first successor after adoption has joined. -/
theorem adopted_joined (h : Invariant c net) (hs : net.peer i = some { node := s, joined := true })
    (ht : net.peer s.firstSucc.id = some { node := t, joined := true }) :
  (adopted s (predAnswer t)).firstSucc.id ∈ net.Joined
  := by
  have hstart : Running c net.Joined i ((idle s).emit (.found .stabilizeSpFound (predAnswer t) 0)) :=
    (h.running hs).congr rfl rfl
  have hfound := hstart.stabilize_sp_found (h.peer ht).known_predAnswer
  have hnode := (nodeFound_stabilizeSpFound s (predAnswer t) 0).1
  dsimp only [nodeFound] at hnode
  rw [← hnode]
  apply hfound.known_firstSucc.id_mem

/-- The node that `i` notifies is `i` itself, after adoption, or another one as it was. -/
theorem exists_notified (h : Invariant c net)
    (hs : net.peer i = some { node := s, joined := true })
    (ht : net.peer s.firstSucc.id = some { node := t, joined := true }) :
  ∃ u, update net.peer i (some { node := adopted s (predAnswer t), joined := true })
      (adopted s (predAnswer t)).firstSucc.id = some { node := u, joined := true }
    ∧ ((adopted s (predAnswer t)).firstSucc.id = i ∧ u = adopted s (predAnswer t)
      ∨ net.peer (adopted s (predAnswer t)).firstSucc.id = some { node := u, joined := true })
  := by
  by_cases hi : (adopted s (predAnswer t)).firstSucc.id = i
  · rw [hi, update_self]
    exact ⟨_, rfl, Or.inl ⟨rfl, rfl⟩⟩
  · obtain ⟨u, hu⟩ := adopted_joined h hs ht
    rw [update_of_ne hi]
    exact ⟨u, hu, Or.inr hu⟩

/-- When a complete stabilisation of `i` changes nothing, the first successor after adoption
is the one it was. -/
theorem firstSucc_of_rest (h : Invariant c net) (hmsgs : net.msgs = [])
    (hs : net.peer i = some { node := s, joined := true })
    (ht : net.peer s.firstSucc.id = some { node := t, joined := true })
    {u : NodeSelf} (hu : update net.peer i (some { node := adopted s (predAnswer t), joined := true })
      (adopted s (predAnswer t)).firstSucc.id = some { node := u, joined := true })
    (hrest : (net.stabilised ip i).links = net.links) :
  (adopted s (predAnswer t)).firstSucc.id = s.firstSucc.id
  := by
  have hlinks := congrFun hrest i
  simp only [links, stabilised_eq h hmsgs hs ht hu, hs, Option.map_some] at hlinks
  by_cases hi : (adopted s (predAnswer t)).firstSucc.id = i
  · have hux : u = adopted s (predAnswer t) := by
      rw [hi, update_self] at hu
      exact (congrArg Peer.node (Option.some.inj hu)).symm
    rw [hi, update_self, hux] at hlinks
    simp only [Option.map_some, nodeNotified_firstSucc, Option.some.injEq, Prod.mk.injEq] at hlinks
    apply hlinks.1
  · rw [update_of_ne (Ne.symm hi), update_self] at hlinks
    simp only [Option.map_some, Option.some.injEq, Prod.mk.injEq] at hlinks
    apply hlinks.1

/-- A node that is not adopted, and is not the first successor, is the node itself or has it
between itself and the first successor. -/
theorem clockwise_le_of_not_adopted {n : NodeInfo} (hIP : n.IP ≠ 0) (hne : n.id ≠ s.firstSucc.id)
    (hkept : (adopted s n).firstSucc.id = s.firstSucc.id) :
  clockwise n.id s.self.id ≤ clockwise n.id s.firstSucc.id
  := by
  by_cases hadopt : Adopts s n
  · rw [adopted_firstSucc_of_adopts hIP hadopt] at hkept
    exact absurd hkept hne
  · rw [adopts_iff] at hadopt
    have hnot := not_and.mp hadopt (Or.inr hIP)
    obtain ⟨-, hnot⟩ := not_or.mp hnot
    by_cases hself : n.id = s.self.id
    · rw [hself]
      simp
    · apply clockwise_le_of_lt (not_le.mp (fun hle => hnot ⟨hself, hle⟩))

/-- When a complete stabilisation of `i` changes nothing, the predecessor of its first
successor is `i`. -/
theorem pred_of_rest (h : Invariant c net) (hmsgs : net.msgs = [])
    (hs : net.peer i = some { node := s, joined := true })
    (ht : net.peer s.firstSucc.id = some { node := t, joined := true })
    (hrest : (net.stabilised ip i).links = net.links) :
  t.hasPred = true ∧ t.predecessor.id = i
  := by
  have hself : s.self.id = i := (h.peer hs).self_id
  have hother : t.self.id = s.firstSucc.id := (h.peer ht).self_id
  obtain ⟨u, hu, hucases⟩ := exists_notified h hs ht
  have hsame := firstSucc_of_rest h hmsgs hs ht hu hrest
  -- the notified node knows what `t` knows
  have hut : u.predecessor = t.predecessor ∧ u.hasPred = t.hasPred ∧ u.self = t.self := by
    rcases hucases with ⟨hi, rfl⟩ | hu'
    · rw [← hsame, hi, hs] at ht
      cases ht
      apply adopted_rest
    · rw [hsame, ht] at hu'
      cases hu'
      exact ⟨rfl, rfl, rfl⟩
  have hlinks := congrFun hrest s.firstSucc.id
  simp only [links, stabilised_eq h hmsgs hs ht hu, ht, hsame, update_self, Option.map_some,
    Option.some.injEq, Prod.mk.injEq] at hlinks
  obtain ⟨-, hid, hhas⟩ := hlinks
  rw [← hut.1] at hid
  rw [← hut.2.1] at hhas
  obtain ⟨hpred, hcases⟩ := nodeNotified_unchanged hid hhas
  rw [hut.1, hut.2.2, hother] at hcases
  rw [hut.2.1] at hpred
  use hpred
  apply hcases.resolve_right
  rintro ⟨hbetween, hne⟩
  have hanswer : predAnswer t = t.predecessor := by
    rw [predAnswer, if_pos hpred]
  rw [hanswer] at hsame
  apply hbetween
  have hle := clockwise_le_of_not_adopted ((h.peer ht).pred hpred).IP_ne hne hsame
  rwa [hself] at hle

end Stabilised

/-! ### The ideal ring -/

variable {c : HashType} {net : Net}

/-- In a network at rest every node is preceded, along first successors, by one node only. -/
theorem next_injOn (h : Invariant c net)
    (hpred : ∀ i s t, net.peer i = some { node := s, joined := true } →
      net.peer s.firstSucc.id = some { node := t, joined := true } → t.predecessor.id = i) :
  Set.InjOn net.next net.Joined
  := by
  rintro i ⟨s, hs⟩ j ⟨r, hr⟩ hij
  rw [next_of_peer hs, next_of_peer hr] at hij
  obtain ⟨t, ht⟩ := (h.running hs).known_firstSucc.id_mem
  have hi := hpred i s t hs ht
  have hj := hpred j r t hr (hij ▸ ht)
  rw [← hi, hj]

/-- A reachable network with no message in flight, in which no complete stabilisation of any
node changes the first successor or the predecessor of a node, is the ideal ring: the first
successor of every node is the next one clockwise, and its predecessor the previous one. -/
theorem ideal_at_rest (h : Reachable c net) (hmsgs : net.msgs = []) (ip : HashType → UInt32)
    (hrest : ∀ i ∈ net.Joined, (net.stabilised (ip i) i).links = net.links) :
  ∀ i s, net.peer i = some { node := s, joined := true } →
    Next net.Joined i s.firstSucc.id
      ∧ s.hasPred = true ∧ Previous net.Joined i s.predecessor.id
  := by
  have hinv := h.invariant
  have hpred : ∀ i s t, net.peer i = some { node := s, joined := true } →
      net.peer s.firstSucc.id = some { node := t, joined := true } →
      t.hasPred = true ∧ t.predecessor.id = i := by
    intro i s t hs ht
    apply pred_of_rest hinv hmsgs hs ht (hrest i ⟨s, hs⟩)
  have hinj := next_injOn hinv (fun i s t hs ht => (hpred i s t hs ht).2)
  have hnext : ∀ i ∈ net.Joined, Next net.Joined i (net.next i) := fun i hi =>
    hinv.climbs.next_of_injOn hinj hi
  intro i s hs
  have hmem : i ∈ net.Joined := ⟨s, hs⟩
  constructor
  · have hi := hnext i hmem
    rw [next_of_peer hs] at hi
    apply hi
  · -- the node whose first successor `i` is comes before `i`
    obtain ⟨j, hjmem, hj⟩ := hinv.climbs.exists_preimage_of_injOn hinj hmem
    have hjnext := hnext j hjmem
    obtain ⟨r, hr⟩ := hjmem
    rw [hj] at hjnext
    rw [next_of_peer hr] at hj
    obtain ⟨hhas, hid⟩ := hpred j r s hr (hj ▸ hs)
    use hhas
    rw [hid]
    apply hjnext.previous ⟨r, hr⟩

/-- The network of the nodes `5` and `9` after `9` has joined and each of them has stabilised
once. -/
def settled : Net :=
  (two.stabilised 1 9).stabilised 1 5

theorem mem_settled {i : HashType} (h : settled.peer i ≠ none) :
  i = 5 ∨ i = 9
  := by
  by_contra hi
  obtain ⟨h₁, h₂⟩ := not_or.mp hi
  have hnone : two.peer i = none := by
    simp [two, asked, joining, created, act, update_of_ne h₁, update_of_ne h₂]
  have hmap : (settled.peer i).map Peer.joined = none := by
    rw [settled, stabilised_joined, stabilised_joined, hnone]
    rfl
  apply h (Option.map_eq_none_iff.mp hmap)

theorem reachable_settled :
  Reachable 5 settled
  := by
  have hjoined : 5 ∈ (two.stabilised 1 9).Joined := by
    have hmap := stabilised_joined two 1 9 5
    obtain ⟨⟨s, b⟩, hpeer, hjoined⟩ := Option.map_eq_some_iff.mp hmap
    obtain rfl : b = true := hjoined
    exact ⟨s, hpeer⟩
  apply (reachable_two.stabilised (by decide) ⟨_, rfl⟩).stabilised (by decide) hjoined

theorem links_settled {i : HashType} (hi : i = 5 ∨ i = 9) :
  (settled.stabilised 1 i).links = settled.links
  := by
  funext j
  by_cases hj : j = 5 ∨ j = 9
  · rcases hi with rfl | rfl <;> rcases hj with rfl | rfl <;> decide +kernel
  · have hnone : settled.peer j = none := not_not.mp (fun h => hj (mem_settled h))
    have hmap := stabilised_joined settled 1 i j
    rw [hnone] at hmap
    rw [links, links, hnone, Option.map_eq_none_iff.mp hmap]

/-- In the settled network the node `9` has the next node as successor and the previous one as
predecessor. -/
theorem ideal_at_rest_settled :
  ∃ s, settled.peer 9 = some { node := s, joined := true }
    ∧ Next settled.Joined 9 s.firstSucc.id
    ∧ s.hasPred = true ∧ Previous settled.Joined 9 s.predecessor.id
  := by
  have hrest : ∀ i ∈ settled.Joined, (settled.stabilised 1 i).links = settled.links := by
    rintro i ⟨s, hs⟩
    apply links_settled (mem_settled _)
    rw [hs]
    simp
  have hjoined : (settled.peer 9).map Peer.joined = some true := by decide +kernel
  obtain ⟨⟨s, b⟩, hs, hb⟩ := Option.map_eq_some_iff.mp hjoined
  obtain rfl : b = true := hb
  exact ⟨s, hs, ideal_at_rest reachable_settled (by decide +kernel) (fun _ => 1) hrest 9 s hs⟩

end Net
