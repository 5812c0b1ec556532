import LibDht.Circle.Climb
import LibDht.Protocol.Handlers
import Mathlib.Data.List.Perm.Lattice

/-!
# One ordered ring

Every step of a network keeps its invariant, and the invariant says that the first
successors climb to the node that created the network: each is that node, or comes
after the node it is the successor of, seen from there. So there is one ring, through the
creator, and it is in order.
-/

open Circle Function

namespace Net

variable {c : HashType} {net : Net}

/-! ### Who has joined -/

theorem joined_of_mem {i : HashType} (h : i ∈ net.Joined) {s : NodeSelf} {b : Bool}
    (hi : net.peer i = some { node := s, joined := b }) :
  b = true
  := by
  obtain ⟨s', hs'⟩ := h
  rw [hs'] at hi
  cases hi
  rfl

/-- A process that changes without joining or leaving changes nothing about who has
joined. -/
theorem joined_update {i : HashType} {peer : Peer} {msgs : List Msg}
    (h : peer.joined = true ↔ i ∈ net.Joined) :
  Joined { peer := update net.peer i (some peer), msgs := msgs } = net.Joined
  := by
  ext j
  by_cases hij : j = i
  · subst hij
    rw [← h]
    simp only [Joined, Set.mem_ofPred_eq, update_self, Option.some.injEq]
    constructor
    · rintro ⟨s, rfl⟩
      rfl
    · intro hj
      use peer.node
      rw [← hj]
  · simp [Joined, hij]

/-- A process that has joined is one more. -/
theorem joined_insert {i : HashType} {s : NodeSelf} {msgs : List Msg} :
  Joined { peer := update net.peer i (some { node := s, joined := true }), msgs := msgs }
    = insert i net.Joined
  := by
  ext j
  by_cases hij : j = i
  · subst hij
    simp [Joined]
  · simp [Joined, hij]

/-- The messages that are left when one is taken out. -/
theorem kept {msgs before after : List Msg} {m : Msg} (hm : msgs = before ++ m :: after) :
  (before ++ after).Sublist msgs
  := by
  rw [hm]
  apply (List.sublist_cons_self m after).append_left

/-! ### Changes that keep the invariant -/

namespace Invariant

/-- A process changes, and the messages do. -/
theorem put (h : Invariant c net) {i : HashType} {peer : Peer} {msgs : List Msg}
    {J : Set HashType} (hsub : net.Joined ⊆ J)
    (hJ : Joined { peer := update net.peer i (some peer), msgs := msgs } = J)
    (hpeer : PeerOk c J i peer) (hmsgs : ∀ m ∈ msgs, MsgOk c J m)
    (hnodup : (msgs.filterMap Msg.joiner).Nodup)
    (hjoining : ∀ x ∈ msgs.filterMap Msg.joiner,
      ∃ s, update net.peer i (some peer) x = some { node := s, joined := false }) :
  Invariant c { peer := update net.peer i (some peer), msgs := msgs }
  := by
  constructor
  · rw [hJ]
    apply hsub h.root_mem
  · intro j q hj
    rw [hJ]
    dsimp only at hj
    by_cases hji : j = i
    · subst hji
      rw [update_self] at hj
      cases hj
      apply hpeer
    · rw [update_of_ne hji] at hj
      apply (h.peer hj).mono hsub
  · rw [hJ]
    apply hmsgs
  · apply hnodup
  · apply hjoining

/-- A joined node that starts to run. -/
theorem running (h : Invariant c net) {i : HashType} {s : NodeSelf}
    (hi : net.peer i = some { node := s, joined := true }) :
  Running c net.Joined i (idle s)
  := Running.start ⟨s, hi⟩ (h.peer hi)

/-- A joined process changes, and the messages do; who joins with a message joined with one
before. -/
theorem act (h : Invariant c net) {i : HashType} {s : NodeSelf} {msgs : List Msg}
    (hi : i ∈ net.Joined) (hs : PeerOk c net.Joined i { node := s, joined := true })
    (hmsgs : ∀ m ∈ msgs, MsgOk c net.Joined m)
    (hjoiner : (msgs.filterMap Msg.joiner).Subperm (net.msgs.filterMap Msg.joiner)) :
  Invariant c { peer := update net.peer i (some { node := s, joined := true }), msgs := msgs }
  := by
  have hJ : Joined { peer := update net.peer i (some { node := s, joined := true }), msgs := msgs }
      = net.Joined := joined_update (iff_of_true rfl hi)
  apply h.put subset_rfl hJ hs hmsgs
  · obtain ⟨l, hperm, hsub⟩ := hjoiner
    apply hperm.nodup_iff.mp (h.nodup.sublist hsub)
  · intro x hx
    obtain ⟨s', hs'⟩ := h.joining x (hjoiner.subset hx)
    use s'
    rw [update_of_ne]
    · apply hs'
    · rintro rfl
      cases joined_of_mem hi hs'

/-- The messages change and no process does. -/
theorem setMsgs (h : Invariant c net) {msgs : List Msg}
    (hmsgs : ∀ m ∈ msgs, MsgOk c net.Joined m)
    (hjoiner : (msgs.filterMap Msg.joiner).Subperm (net.msgs.filterMap Msg.joiner)) :
  Invariant c { net with msgs := msgs }
  := by
  constructor
  · exact h.root_mem
  · exact h.peer
  · exact hmsgs
  · obtain ⟨l, hperm, hsub⟩ := hjoiner
    apply hperm.nodup_iff.mp (h.nodup.sublist hsub)
  · intro x hx
    apply h.joining x (hjoiner.subset hx)

/-- A node whose join is in flight has not joined. -/
theorem not_mem_of_joiner (h : Invariant c net) {m : Msg} (hm : m ∈ net.msgs) {x : HashType}
    (hx : m.joiner = some x) :
  x ∉ net.Joined
  := by
  intro hmem
  obtain ⟨s, hs⟩ := h.joining x (List.mem_filterMap.mpr ⟨m, hm, hx⟩)
  cases joined_of_mem hmem hs

/-- A joined node runs one of its operations, having received a message or not. -/
theorem run (h : Invariant c net) {i : HashType} {p : Process Outbox} {kept : List Msg}
    (hkept : kept.Sublist net.msgs) (hp : Running c net.Joined i p) :
  Invariant c ({ net with msgs := kept }.act i true [] p)
  := by
  apply h.act hp.mem hp.peer
  · intro m hm
    rcases List.mem_append.mp hm with hm | hm
    · apply h.msg m (hkept.subset hm)
    · apply (msgOk_of_mem_route hp.mem hp.sent hm).1
  · have hnone : (route i [] p.net.sent).filterMap Msg.joiner = [] := by
      apply List.filterMap_eq_nil_iff.mpr
      intro m hm
      apply (msgOk_of_mem_route (c := c) hp.mem hp.sent hm).2
    rw [List.filterMap_append, hnone, List.append_nil]
    apply (hkept.filterMap _).subperm

/-- A message is received and one is sent in its place. -/
theorem forward (h : Invariant c net) {i : HashType} {s : NodeSelf} {m m' : Msg}
    {before after : List Msg} (hm : net.msgs = before ++ m :: after) (hi : i ∈ net.Joined)
    (hs : net.peer i = some { node := s, joined := true }) (hok : MsgOk c net.Joined m')
    (hjoiner : m'.joiner = m.joiner) :
  Invariant c { peer := update net.peer i (some { node := s, joined := true })
                msgs := before ++ after ++ [m'] }
  := by
  apply h.act hi (h.peer hs)
  · intro q hq
    rw [List.mem_append, List.mem_singleton] at hq
    rcases hq with hq | rfl
    · apply h.msg q ((kept hm).subset hq)
    · apply hok
  · apply List.Perm.subperm
    have hperm : (before ++ after ++ [m']).Perm (before ++ m' :: after) := by
      rw [List.append_assoc]
      apply List.Perm.append_left before (List.perm_append_singleton m' after)
    apply (hperm.filterMap _).trans
    rw [hm]
    simp [List.filterMap_cons, hjoiner]

end Invariant

namespace Invariant

/-! ### Joining -/

/-- A node calls `node_network_join`. -/
theorem join (h : Invariant c net) {i : HashType} (mem : NodeSelf) (port : UInt16)
    {contact : NodeInfo} (arg : ℕ) (hi : net.peer i = none) (hc : contact.id ∈ net.Joined)
    (hf : ∀ k, NullFinger (mem.fingerTable k) ∨ (mem.fingerTable k).id ∈ net.Joined) :
  Invariant c (net.act i false [] (nodeNetworkJoin (idle (nodeCreate mem i port)) contact arg))
  := by
  have hmem : i ∉ net.Joined := by
    rintro ⟨s, hs⟩
    rw [hi] at hs
    cases hs
  have hfresh : i ∉ net.msgs.filterMap Msg.joiner := by
    intro hx
    obtain ⟨s, hs⟩ := h.joining i hx
    rw [hi] at hs
    cases hs
  let request : Msg := .succRequest contact.id i [{ owner := i, cb := .networkJoinSuccFound arg }]
  have hjoiner : (net.msgs ++ [request]).filterMap Msg.joiner
      = net.msgs.filterMap Msg.joiner ++ [i] := by
    rw [List.filterMap_append]
    rfl
  change Invariant c
    { peer := update net.peer i
        (some { node := { nodeCreate mem i port with hasPred := false }, joined := false })
      msgs := net.msgs ++ [request] }
  apply h.put subset_rfl
  · apply joined_update
    apply iff_of_false Bool.false_ne_true hmem
  · constructor
    · rfl
    · simp [nodeCreate]
    · intro hp
      cases hp
    · intro k
      apply (hf k).imp_right
      intro hk
      use hk
      rintro heq
      apply hmem (heq ▸ hk)
    · intro hj
      cases hj
  · intro m hm
    rcases List.mem_append.mp hm with hm | hm
    · apply h.msg m hm
    · obtain rfl := List.mem_singleton.mp hm
      exact ⟨hc, rfl⟩
  · apply hjoiner ▸ h.nodup.append (List.nodup_singleton i) (by simpa using hfresh)
  · intro x hx
    rw [hjoiner, List.mem_append] at hx
    rcases hx with hx | hx
    · obtain ⟨s, hs⟩ := h.joining x hx
      use s
      rw [update_of_ne]
      · apply hs
      · rintro rfl
        apply hfresh hx
    · obtain rfl := List.mem_singleton.mp hx
      exact ⟨_, update_self ..⟩

/-- The reply that a joining node waits for arrives. -/
theorem joinSuccFound (h : Invariant c net) {i : HashType} {arg : ℕ} {node : NodeInfo}
    {hops : Int16} {s : NodeSelf} {b : Bool} {before after : List Msg}
    (hm : net.msgs = before
      ++ .succReply node hops [{ owner := i, cb := .networkJoinSuccFound arg }] :: after)
    (hi : net.peer i = some { node := s, joined := b }) :
  Invariant c ({ net with msgs := before ++ after }.act i true []
    (nodeFound (idle s) { cb := .networkJoinSuccFound arg, node := node, hops := hops }))
  := by
  obtain ⟨hnode, -, hpast⟩ := h.msg _ (hm ▸ List.mem_append_right before List.mem_cons_self)
  have hsplit : net.msgs.filterMap Msg.joiner
      = before.filterMap Msg.joiner ++ i :: after.filterMap Msg.joiner := by
    rw [hm, List.filterMap_append]
    rfl
  have hperm : (before.filterMap Msg.joiner ++ i :: after.filterMap Msg.joiner).Perm
      (i :: (before.filterMap Msg.joiner ++ after.filterMap Msg.joiner)) := List.perm_middle
  have hnodup := h.nodup
  rw [hsplit, hperm.nodup_iff, List.nodup_cons, ← List.filterMap_append] at hnodup
  have hs := (h.peer hi).mono (Set.subset_insert i net.Joined)
  change Invariant c
    { peer := update net.peer i (some { node := s.setSuccessor 0 node, joined := true })
      msgs := before ++ after ++ [] }
  rw [NodeSelf.setSuccessor_zero, List.append_nil]
  apply h.put (Set.subset_insert i _) joined_insert
  · constructor
    · exact hs.self_id
    · exact hs.self_IP
    · exact hs.pred
    · exact hs.finger
    · intro _
      simp only [update_self]
      exact ⟨hnode.mono (Set.subset_insert i _), hpast i rfl⟩
  · intro m hq
    apply MsgOk.mono _ (Set.subset_insert i _)
    apply h.msg
    apply (kept hm).subset hq
  · apply hnodup.2
  · intro x hx
    obtain ⟨s', hs'⟩ := h.joining x (by
      rw [hsplit, hperm.mem_iff, ← List.filterMap_append]
      apply List.mem_cons_of_mem _ hx)
    use s'
    rw [update_of_ne]
    · apply hs'
    · rintro rfl
      apply hnodup.1 hx

/-! ### Lookups, and replies to them -/

/-- A lookup arrives at a node. -/
theorem succRequest (h : Invariant c net) {dest id : HashType} {frames : List Frame}
    {s : NodeSelf} {b : Bool} {before after : List Msg}
    (hm : net.msgs = before ++ .succRequest dest id frames :: after)
    (hd : net.peer dest = some { node := s, joined := b }) (hne : dest ≠ id) :
  Invariant c ({ net with msgs := before ++ after }.act dest b frames
    (nodeFindSuccessor (idle s) id relay).2)
  := by
  have hin : Msg.succRequest dest id frames ∈ net.msgs :=
    hm ▸ List.mem_append_right before List.mem_cons_self
  obtain ⟨hdest, hstack⟩ := h.msg _ hin
  obtain rfl := joined_of_mem hdest hd
  obtain ⟨hnode, hserve⟩ := serve (h.running hd) hne
  rw [Net.act]
  rw [hnode]
  rcases hserve with ⟨n, hops, hn, hpast, hroute⟩ | ⟨n, hn, hroute⟩
  · rw [hroute frames]
    apply h.forward hm hdest hd
    · refine ⟨hn, ⟨id, hstack⟩, ?_⟩
      intro x hx
      obtain rfl := hstack.joinerOf_eq hx
      apply hpast (h.not_mem_of_joiner hin hx)
    · rfl
  · rw [hroute frames]
    obtain ⟨hpush, hjoiner⟩ := hstack.push hdest
    apply h.forward hm hdest hd
    · exact ⟨hn, hpush⟩
    · apply hjoiner

/-- The reply to a lookup arrives at a node. -/
theorem succReply (h : Invariant c net) {node : NodeInfo} {hops : Int16} {f : Frame}
    {frames : List Frame} {s : NodeSelf} {b : Bool} {before after : List Msg}
    (hm : net.msgs = before ++ .succReply node hops (f :: frames) :: after)
    (hd : net.peer f.owner = some { node := s, joined := b }) :
  Invariant c ({ net with msgs := before ++ after }.act f.owner (b || joins f.cb) frames
    (nodeFound (idle s) { cb := f.cb, node := node, hops := hops }))
  := by
  have hin : Msg.succReply node hops (f :: frames) ∈ net.msgs :=
    hm ▸ List.mem_append_right before List.mem_cons_self
  obtain ⟨hnode, ⟨id, hstack⟩, hpast⟩ := h.msg _ hin
  obtain ⟨owner, cb⟩ := f
  cases frames with
  | cons g frames =>
    -- the node forwarded the lookup, and hands the reply on
    obtain ⟨hcb, howner, hstack⟩ := hstack
    dsimp only at hcb howner hd
    subst hcb
    obtain rfl := joined_of_mem howner hd
    have hok : MsgOk c net.Joined (.succReply node (hops + 1) (g :: frames)) :=
      ⟨hnode, ⟨id, hstack⟩, hpast⟩
    apply h.forward hm howner hd hok
    rfl
  | nil =>
    by_cases hjoin : joins cb = true
    · cases cb with
      | networkJoinSuccFound arg =>
        simp only [joins, Bool.or_true]
        apply h.joinSuccFound hm hd
      | _ => cases hjoin
    · have howner : owner ∈ net.Joined := by
        cases cb with
        | networkJoinSuccFound arg => exact absurd rfl hjoin
        | stabilizeSpFound => exact absurd hstack not_false
        | updateSuccsFound k => apply hstack.1
        | fingerUpdate k => apply hstack
        | successorFoundForRemote d => exact absurd hstack not_false
        | app arg => apply hstack
        | freed => exact absurd hstack not_false
      obtain rfl := joined_of_mem howner hd
      simp only [Bool.true_or]
      apply h.run (kept hm)
      apply (h.running hd).found hstack (Bool.not_eq_true _ ▸ hjoin) hnode

/-! ### Every step -/

/-- The node `c` creates a network. -/
theorem created (mem : NodeSelf) (c : HashType) (port : UInt16) (arg : ℕ)
    (hf : ∀ k, NullFinger (mem.fingerTable k)) :
  Invariant c (Net.created mem c port arg)
  := by
  have hroot : c ∈ (Net.created mem c port arg).Joined := by
    use (nodeNetworkCreate (idle (nodeCreate mem c port)) arg).2.node
    apply update_self
  have hself : Known (Net.created mem c port arg).Joined (nodeCreate mem c port).self :=
    ⟨hroot, by simp [nodeCreate]⟩
  constructor
  · apply hroot
  · intro i peer hi
    simp only [Net.created] at hi
    by_cases hic : i = c
    · subst hic
      rw [update_self] at hi
      cases hi
      constructor
      · rfl
      · apply hself.IP_ne
      · intro _
        apply hself
      · intro k
        left
        apply hf k
      · intro _
        exact ⟨hself, past_self i _⟩
    · rw [update_of_ne hic] at hi
      cases hi
  · intro m hm
    cases hm
  · apply List.nodup_nil
  · intro x hx
    cases hx

theorem step {net' : Net} (h : Invariant c net) (hs : Step net net') :
  Invariant c net'
  := by
  cases hs with
  | timer t hi =>
    apply h.run (List.Sublist.refl _) ((h.running hi).fire t)
  | lookup id arg hi =>
    apply h.run (List.Sublist.refl _)
    apply (h.running hi).find_successor
    · apply (h.running hi).mem
    · rfl
    · exact fun _ => rfl
  | join mem port contact arg hi hc hf => apply h.join mem port arg hi hc hf
  | succRequest hm hd hne => apply h.succRequest hm hd hne
  | succReply hm hd => apply h.succReply hm hd
  | @predRequest _ f s b before after hops hm hd =>
    obtain ⟨hdest, howner, hcb⟩ := h.msg _ (hm ▸ List.mem_append_right _ List.mem_cons_self)
    apply h.setMsgs
    · intro m hq
      rcases List.mem_append.mp hq with hq | hq
      · apply h.msg m ((kept hm).subset hq)
      · rw [List.mem_singleton.mp hq]
        exact ⟨howner, hcb, (h.peer hd).known_predAnswer⟩
    · have hnone : ((before ++ after ++ [Msg.predReply (predAnswer s) hops f]).filterMap Msg.joiner)
          = (before ++ after).filterMap Msg.joiner := by
        rw [List.filterMap_append]
        apply List.append_nil
      rw [hnone]
      apply ((kept hm).filterMap _).subperm
  | predReply hm hd =>
    obtain ⟨howner, hcb, hnode⟩ := h.msg _ (hm ▸ List.mem_append_right _ List.mem_cons_self)
    obtain rfl := joined_of_mem howner hd
    rw [hcb]
    apply h.run (kept hm)
    apply Running.stabilize_sp_found _ hnode
    exact (h.running hd).congr rfl rfl
  | notify ip hip hm hd =>
    obtain ⟨hdest, hid⟩ := h.msg _ (hm ▸ List.mem_append_right _ List.mem_cons_self)
    obtain rfl := joined_of_mem hdest hd
    apply h.run (kept hm)
    apply (h.running hd).notified ⟨hid, hip⟩
  | lose hm =>
    apply h.setMsgs
    · intro m hq
      apply h.msg m ((kept hm).subset hq)
    · apply ((kept hm).filterMap _).subperm

end Invariant

theorem Reachable.invariant (h : Reachable c net) :
  Invariant c net
  := by
  induction h with
  | created mem port arg hf => apply Invariant.created mem c port arg hf
  | step _ hs ih => apply ih.step hs

/-! ### The ring -/

/-- The identifier of the first successor in use of a node. -/
def next (net : Net) (i : HashType) : HashType :=
  match net.peer i with
  | some peer => peer.node.firstSucc.id
  | none => i

theorem next_of_peer {i : HashType} {peer : Peer} (hi : net.peer i = some peer) :
  net.next i = peer.node.firstSucc.id
  := by
  rw [next, hi]

/-- The first successors climb to the creator of the network. -/
theorem Invariant.climbs (h : Invariant c net) :
  Climbs net.Joined net.next c (clockwise c)
  := by
  constructor
  · apply h.root_mem
  · rintro i ⟨s, hs⟩
    rw [next_of_peer hs]
    apply (h.running hs).known_firstSucc.id_mem
  · rintro i ⟨s, hs⟩
    rw [next_of_peer hs]
    apply (h.running hs).past_firstSucc
  · use UInt32.size
    intro i _
    apply clockwise_lt

/-- In every network reached by joins from one node `c`, whatever the order in which messages
arrive and timers fire: the first successor in use of a joined node is a joined node;
following first successors leads from every joined node to `c`; and the way from `c` back
to `c` is the only cycle, and goes once round the circle of identifiers, clockwise. -/
theorem one_ordered_ring (h : Reachable c net) :
  (∀ i s, net.peer i = some { node := s, joined := true } →
      nodeFirstAliveSucc s ≠ -1 ∧ s.firstSucc.id ∈ net.Joined)
    ∧ (∀ i ∈ net.Joined, ∃ k, net.next^[k] i = c)
    ∧ ∃ p > 0, net.next^[p] c = c
      ∧ StrictMonoOn (fun k => (net.next^[k] c - c).toNat) (Set.Iio p)
      ∧ ∀ i ∈ net.Joined, (∃ k > 0, net.next^[k] i = i) → ∃ k < p, net.next^[k] c = i
  := by
  have hinv := h.invariant
  have hclimb := hinv.climbs
  refine ⟨?_, ?_, minimalPeriod net.next c, hclimb.period_pos, ?_, ?_, ?_⟩
  · intro i s hs
    have hrun := hinv.running hs
    constructor
    · rw [← idle_node s, hrun.firstAlive]
      decide
    · apply hrun.known_firstSucc.id_mem
  · intro i hi
    obtain ⟨k, hk⟩ := hclimb.reaches_root hi
    use k + 1
  · apply isPeriodicPt_minimalPeriod
  · apply hclimb.strictMonoOn_height
  · rintro i hi ⟨k, hk, hp⟩
    apply hclimb.mem_cycle_of_periodic hi hk hp

/-! ### A run -/

/-- The node `9` has called `node_network_join` with the creator `5`, -/
def joining : Net :=
  (created .blank 5 4000 0).act 9 false []
    (nodeNetworkJoin (idle (nodeCreate .blank 9 4001)) { id := 5, IP := 0x7F000001, port := 4000 } 0)

/-- its lookup has arrived, -/
def asked : Net :=
  { joining with msgs := [] }.act 5 true [{ owner := 9, cb := .networkJoinSuccFound 0 }]
    (nodeFindSuccessor (idle (nodeNetworkCreate (idle (nodeCreate .blank 5 4000)) 0).2.node) 9 relay).2

/-- and so has the reply. -/
def two : Net :=
  { asked with msgs := [] }.act 9 true []
    (nodeFound (idle { nodeCreate .blank 9 4001 with hasPred := false })
      { cb := .networkJoinSuccFound 0
        node := { id := 5, IP := 0x7F000001, port := 4000 }
        hops := 1 })

theorem reachable_two :
  Reachable 5 two
  := by
  have hblank : ∀ k, NullFinger (NodeSelf.blank.fingerTable k) := fun _ => Or.inl rfl
  have hcreated : Reachable 5 (created .blank 5 4000 0) := .created .blank 4000 0 hblank
  have hjoining : Reachable 5 joining := by
    apply hcreated.step
    apply Step.join .blank 4001 _ 0 rfl ⟨_, rfl⟩ (fun k => Or.inl (hblank k))
  have hasked : Reachable 5 asked := by
    apply hjoining.step
    have hmsgs : joining.msgs = [] ++ .succRequest 5 9 [⟨9, .networkJoinSuccFound 0⟩] :: [] := rfl
    apply Step.succRequest hmsgs rfl (by decide)
  have hmsgs : asked.msgs = [] ++ .succReply { id := 5, IP := 0x7F000001, port := 4000 } 1
      [⟨9, .networkJoinSuccFound 0⟩] :: [] := by decide +kernel
  have hpeer : asked.peer 9
      = some { node := { nodeCreate .blank 9 4001 with hasPred := false }, joined := false } := rfl
  exact hasked.step (.succReply hmsgs hpeer)

/-- From the node `9`, which has joined, first successors lead to `5`. -/
theorem one_ordered_ring_two :
  9 ∈ two.Joined ∧ ∃ k, two.next^[k] 9 = 5
  := by
  have hmem : 9 ∈ two.Joined := ⟨_, rfl⟩
  exact ⟨hmem, (one_ordered_ring reachable_two).2.1 9 hmem⟩

end Net
