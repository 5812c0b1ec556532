import LibDht.Protocol.Step

/-!
# What holds in every reachable network

Fix the node `c` that created the network. In every reachable network the first successor
entry of every joined node is in use, names a joined node, and does not lie past `c`:
following it from a node other than `c`, one comes closer to `c`, or to `c` itself. The
messages in flight keep to this. The reply a joining node waits for names a joined node
that does not lie past `c` either, as seen from the joining node: the node that answered
had its own first successor on the far side of the joining node.

The invariant speaks of the joined nodes only positively, except for one thing: a node
whose join is still in flight has not joined.
-/

open Circle

/-! ### Entries, nodes and messages -/

/-- An entry for a joined node, in use. -/
structure Known (J : Set HashType) (n : NodeInfo) : Prop where
  id_mem : n.id ∈ J
  IP_ne : n.IP ≠ 0

/-- The process `i`: what it knows of others are joined nodes, and once it has joined, its
first successor is a joined node that is not past `c`. -/
structure PeerOk (c : HashType) (J : Set HashType) (i : HashType) (peer : Peer) : Prop where
  self_id : peer.node.self.id = i
  self_IP : peer.node.self.IP ≠ 0
  pred : peer.node.hasPred = true → Known J peer.node.predecessor
  finger : ∀ k, NullFinger (peer.node.fingerTable k)
    ∨ (peer.node.fingerTable k).id ∈ J ∧ (peer.node.fingerTable k).id ≠ i
  succ : peer.joined = true →
    Known J (peer.node.successor 0) ∧ Past c i (peer.node.successor 0).id

/-- One that waits for the reply to a lookup of `id`, other than a node that forwarded it. -/
def Waits (J : Set HashType) (id : HashType) (f : Frame) : Prop :=
  match f.cb with
  | .networkJoinSuccFound _ => f.owner = id
  | .updateSuccsFound k => f.owner ∈ J ∧ 1 ≤ k ∧ k < numOfSuccs
  | .fingerUpdate _ | .app _ => f.owner ∈ J
  | .stabilizeSpFound | .successorFoundForRemote _ | .freed => False

/-- The stack of a lookup of `id`: those who forwarded it, and at the bottom the one it is
for. -/
def Stack (J : Set HashType) (id : HashType) : List Frame → Prop
  | [] => False
  | [f] => Waits J id f
  | f :: g :: frames => f.cb = relay ∧ f.owner ∈ J ∧ Stack J id (g :: frames)

/-- The node that joins with the reply to a lookup. -/
def joinerOf : List Frame → Option HashType
  | [] => none
  | [f] => if Net.joins f.cb then some f.owner else none
  | _ :: g :: frames => joinerOf (g :: frames)

/-- The node that joins with a message. -/
def Msg.joiner : Msg → Option HashType
  | .succRequest _ _ frames => joinerOf frames
  | .succReply _ _ frames => joinerOf frames
  | _ => none

/-- A message in flight. -/
def MsgOk (c : HashType) (J : Set HashType) : Msg → Prop
  | .succRequest dest id frames => dest ∈ J ∧ Stack J id frames
  | .succReply node _ frames =>
    Known J node ∧ (∃ id, Stack J id frames) ∧ ∀ x, joinerOf frames = some x → Past c x node.id
  | .predRequest dest f => dest ∈ J ∧ f.owner ∈ J ∧ f.cb = .stabilizeSpFound
  | .predReply node _ f =>
    f.owner ∈ J ∧ f.cb = .stabilizeSpFound ∧ (node = nullNode ∨ Known J node)
  | .notify dest id _ => dest ∈ J ∧ id ∈ J

/-- What a joined node `i` sends, other than answers. -/
def SentOk (J : Set HashType) (i : HashType) : Sent → Prop
  | .findSuccessor dest id cb =>
    dest.id ∈ J ∧ Waits J id { owner := i, cb := cb } ∧ Net.joins cb = false
  | .predecessor dest cb => dest.id ∈ J ∧ cb = .stabilizeSpFound
  | .notify dest id _ => dest.id ∈ J ∧ id = i
  | .alive _ _ => True
  | .reply _ _ _ | .useFreed => False

/-- The invariant of the networks that the node `c` has created. -/
structure Net.Invariant (c : HashType) (net : Net) : Prop where
  root_mem : c ∈ net.Joined
  peer : ∀ {i peer}, net.peer i = some peer → PeerOk c net.Joined i peer
  msg : ∀ m ∈ net.msgs, MsgOk c net.Joined m
  nodup : (net.msgs.filterMap Msg.joiner).Nodup
  joining : ∀ x ∈ net.msgs.filterMap Msg.joiner,
    ∃ s, net.peer x = some { node := s, joined := false }

/-! ### More nodes may join -/

section Mono

variable {c i id : HashType} {J J' : Set HashType}

theorem Known.mono {n : NodeInfo} (h : Known J n) (hJ : J ⊆ J') :
  Known J' n
  := ⟨hJ h.id_mem, h.IP_ne⟩

theorem PeerOk.mono {peer : Peer} (h : PeerOk c J i peer) (hJ : J ⊆ J') :
  PeerOk c J' i peer
  where
    self_id := h.self_id
    self_IP := h.self_IP
    pred hp := (h.pred hp).mono hJ
    finger k := (h.finger k).imp_right (fun hk => ⟨hJ hk.1, hk.2⟩)
    succ hj := ⟨(h.succ hj).1.mono hJ, (h.succ hj).2⟩

theorem Waits.mono {f : Frame} (h : Waits J id f) (hJ : J ⊆ J') :
  Waits J' id f
  := by
  obtain ⟨owner, cb⟩ := f
  cases cb with
  | networkJoinSuccFound arg => apply h
  | updateSuccsFound k => exact ⟨hJ h.1, h.2⟩
  | fingerUpdate k => apply hJ h
  | app arg => apply hJ h
  | stabilizeSpFound => apply h
  | successorFoundForRemote d => apply h
  | freed => apply h

theorem Stack.mono {frames : List Frame} (h : Stack J id frames) (hJ : J ⊆ J') :
  Stack J' id frames
  := by
  induction frames with
  | nil => apply h
  | cons f frames ih =>
    cases frames with
    | nil => apply Waits.mono h hJ
    | cons g frames => exact ⟨h.1, hJ h.2.1, ih h.2.2⟩

theorem MsgOk.mono {m : Msg} (h : MsgOk c J m) (hJ : J ⊆ J') :
  MsgOk c J' m
  := by
  cases m with
  | succRequest dest id frames => exact ⟨hJ h.1, h.2.mono hJ⟩
  | succReply node hops frames =>
    obtain ⟨hnode, ⟨id, hstack⟩, hpast⟩ := h
    exact ⟨hnode.mono hJ, ⟨id, hstack.mono hJ⟩, hpast⟩
  | predRequest dest f => exact ⟨hJ h.1, hJ h.2.1, h.2.2⟩
  | predReply node hops f => exact ⟨hJ h.1, h.2.1, h.2.2.imp_right (fun hn => hn.mono hJ)⟩
  | notify dest id port => exact ⟨hJ h.1, hJ h.2⟩

end Mono

/-- The answer to one that asks for the predecessor is the null node or a joined one. -/
theorem PeerOk.known_predAnswer {c i : HashType} {J : Set HashType} {peer : Peer}
    (h : PeerOk c J i peer) :
  predAnswer peer.node = nullNode ∨ Known J (predAnswer peer.node)
  := by
  rw [predAnswer]
  split_ifs with hp
  · right
    apply h.pred hp
  · left
    rfl

/-! ### Stacks -/

section Stacks

variable {J : Set HashType} {i id x : HashType} {frames : List Frame}

/-- The node that joins with a lookup is the one looked for. -/
theorem Stack.joinerOf_eq (h : Stack J id frames) (hx : joinerOf frames = some x) :
  x = id
  := by
  induction frames with
  | nil => cases hx
  | cons f frames ih =>
    cases frames with
    | cons g frames => apply ih h.2.2 hx
    | nil =>
      obtain ⟨owner, cb⟩ := f
      cases cb with
      | networkJoinSuccFound arg => exact (Option.some.inj hx).symm.trans h
      | _ => cases hx

/-- A node that forwards a lookup puts itself on top. -/
theorem Stack.push (h : Stack J id frames) (hi : i ∈ J) :
  Stack J id ({ owner := i, cb := relay } :: frames)
    ∧ joinerOf ({ owner := i, cb := relay } :: frames) = joinerOf frames
  := by
  cases frames with
  | nil => exact absurd h not_false
  | cons f frames => exact ⟨⟨rfl, hi, h⟩, rfl⟩

/-- What a joined node sends without an answer to give goes out as messages with which
nobody joins. -/
theorem msgOk_of_mem_route {c : HashType} {sent : List Sent} {m : Msg} (hi : i ∈ J)
    (hsent : ∀ a ∈ sent, SentOk J i a) (hm : m ∈ route i [] sent) :
  MsgOk c J m ∧ m.joiner = none
  := by
  rcases List.mem_append.mp hm with hm | hm
  · obtain ⟨a, ha, hreq⟩ := List.mem_filterMap.mp hm
    have hok := hsent a ha
    cases a with
    | findSuccessor dest id cb =>
      cases hreq
      exact ⟨⟨hok.1, hok.2.1⟩, by simp [Msg.joiner, joinerOf, hok.2.2]⟩
    | predecessor dest cb =>
      cases hreq
      exact ⟨⟨hok.1, hi, hok.2⟩, rfl⟩
    | notify dest id port =>
      cases hreq
      exact ⟨⟨hok.1, hok.2 ▸ hi⟩, rfl⟩
    | alive dest cb => cases hreq
    | reply data node hops => cases hreq
    | useFreed => cases hreq
  · obtain ⟨a, ha, hans⟩ := List.mem_filterMap.mp (List.mem_of_mem_take hm)
    have hok := hsent a ha
    cases a with
    | reply data node hops => exact absurd hok not_false
    | _ => cases hans

end Stacks
