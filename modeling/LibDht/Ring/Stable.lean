import LibDht.Node.Outbox

/-!
# Lookups on a stable ring

An `Overlay` holds the state of every node of a network, by identifier. It is a stable ring
when the first successor of every node is the next node clockwise and the fingers of every
node are null or other nodes of the ring; nothing is asked of which nodes they are, or in
what order.

`Overlay.lookup` runs a lookup: the node it starts at and every node it is forwarded to run
`nodeFindSuccessor`, and a node that asked another one hands the first record of the reply
to its own callback. A node that another one asks for its own identifier uses what it has
freed, and its process ends before the answer leaves. On a stable ring the first answer to any
other lookup is the node that owns the identifier: the one met first from the identifier on.
-/

open Circle

/-- The nodes of a network, by their identifiers. -/
structure Overlay where
  node : HashType → Option NodeSelf
  self_id : ∀ {i s}, node i = some s → s.self.id = i

namespace Overlay

/-- The identifiers of the nodes. -/
def members (o : Overlay) : Set HashType :=
  { i | ∃ s, o.node i = some s }

/-- The first successor of every node is the next one clockwise, and every finger is null or
another node. -/
structure Stable (o : Overlay) : Prop where
  succ_alive : ∀ {i s}, o.node i = some s → nodeFirstAliveSucc s ≠ -1
  succ_next : ∀ {i s}, o.node i = some s → Next o.members i s.firstSucc.id
  finger : ∀ {i s}, o.node i = some s → ∀ k,
    NullFinger (s.fingerTable k) ∨ (s.fingerTable k).id ∈ o.members ∧ (s.fingerTable k).id ≠ i

/-- The state of the node `i` of a stable ring of the nodes `M`. -/
structure Settled (M : Set HashType) (i : HashType) (s : NodeSelf) : Prop where
  self_id : s.self.id = i
  succ_alive : nodeFirstAliveSucc s ≠ -1
  succ_next : Next M i s.firstSucc.id
  finger : ∀ k, NullFinger (s.fingerTable k) ∨ (s.fingerTable k).id ∈ M ∧ (s.fingerTable k).id ≠ i

/-- What the node asks, and what it hands to its callback `cb` at once, in a lookup of
`id`. -/
def hop (s : NodeSelf) (id : HashType) (cb : FoundCb) :
    List NodeInfo × List (NodeInfo × Int16) :=
  let p := (nodeFindSuccessor (idle s) id cb).2
  (p.net.asked, handedTo cb p.log)

/-- In a lookup of `id` the process of the node calls `cb` with what it has freed, and ends. -/
def Crashes (s : NodeSelf) (id : HashType) (cb : FoundCb) : Prop :=
  .useFreed ∈ (nodeFindSuccessor (idle s) id cb).2.net.sent

instance (s : NodeSelf) (id : HashType) (cb : FoundCb) : Decidable (Crashes s id cb) :=
  inferInstanceAs (Decidable (_ ∈ _))

/-- A reply, handed on: after what was handed to the callback before, the first record of
the reply, which counts one hop more. The reader of the connection closes it after that
record. -/
def handOn (handed : List (NodeInfo × Int16)) :
    Option (List (NodeInfo × Int16)) → Option (List (NodeInfo × Int16))
  | none => none
  | some [] => some handed
  | some ((r, hops) :: _) => some (handed ++ [(r, hops + 1)])

/-- What the callback `cb` of a lookup of `id` started at the node `i` is handed, in order.
The node asked by `i` runs `handle_succ_request`. The result is `none` when there is no
answer within `fuel` hops, a node asked does not exist, or the process of a node ends. -/
def lookup (o : Overlay) (id : HashType) :
    ℕ → HashType → FoundCb → Option (List (NodeInfo × Int16))
  | 0, _, _ => none
  | fuel + 1, i, cb =>
    match o.node i with
    | none => none
    | some s =>
      if Crashes s id cb then none
      else
        match (hop s id cb).1 with
        | [] => some (hop s id cb).2
        | n :: _ => handOn (hop s id cb).2 (lookup o id fuel n.id relay)

variable {o : Overlay}

/-! ### One hop -/

/-- A callback uses what has been freed when it is its own argument. -/
theorem useFreed_mem_nodeFound {cb : FoundCb} (hcb : cb.Passive) (p : Process Outbox)
    (n : NodeInfo) (hops : Int16) :
  .useFreed ∈ (nodeFound p { cb := cb, node := n, hops := hops }).net.sent
    ↔ .useFreed ∈ p.net.sent ∨ cb = .freed
  := by
  cases cb with
  | fingerUpdate k => simp [nodeFound, fingerUpdate]
  | successorFoundForRemote d =>
    simp [nodeFound, nodeSuccessorFoundForRemote, Remote.successorFoundForRemote]
  | app a => simp [nodeFound]
  | freed => simp [nodeFound, Remote.useFreed]
  | _ => exact absurd hcb not_false

/-- The process of a node ends with the lookup of its own identifier, if its callback frees its
argument, and with no other. -/
theorem crashes_iff {s : NodeSelf} {id : HashType} {cb : FoundCb} (hcb : cb.Passive)
    (hlive : cb ≠ .freed) :
  Crashes s id cb ↔ s.self.id = id ∧ cb.called = .freed
  := by
  by_cases hid : s.self.id = id
  · have hself := nodeFindSuccessor_self (p := idle s) cb hid
    dsimp only at hself
    rw [Crashes, hself]
    simp [useFreed_mem_nodeFound hcb, useFreed_mem_nodeFound hcb.called, hlive, hid]
  · apply iff_of_false _ fun h => hid h.1
    rw [Crashes]
    by_cases hans : s.Answers id
    · rw [nodeFindSuccessor_answer (p := idle s) cb hid hans]
      simp [useFreed_mem_nodeFound hcb, hlive]
    · obtain ⟨q, -, hnet, -, hq⟩ := nodeFindSuccessor_forward (p := idle s) cb hid hans
      rw [hq]
      simp [nodeFindSuccessorRemote, Remote.findSuccessorRemote, hnet]

/-- A node that is the one looked for asks nobody, and hands itself to the callback
first. -/
theorem hop_self (s : NodeSelf) {cb : FoundCb} (hcb : cb.Passive) :
  ∃ rest, hop s s.self.id cb = ([], (s.self, 0) :: rest)
  := by
  have h₁ := nodeFound_passive hcb (idle s) s.self 0
  have h₂ := nodeFound_passive hcb.called
    ((nodeFound (idle s) { cb := cb, node := s.self, hops := 0 }).touch
      (nodeFirstAliveSucc (nodeFound (idle s) { cb := cb, node := s.self, hops := 0 }).node))
    (nodeFound (idle s) { cb := cb, node := s.self, hops := 0 }).node.firstSucc 0
  have hself := nodeFindSuccessor_self (p := idle s) cb rfl
  dsimp only [idle_node] at h₁ h₂ hself
  rw [hop, hself]
  simp only [Process.unlock_net, Process.unlock_log, h₂.1, h₂.2.1, Process.touch_net,
    Process.touch_log, h₁.1, h₁.2.1, handedTo_append, handedTo_found, List.append_assoc]
  exact ⟨_, rfl⟩

/-- A node whose first successor is the answer asks nobody, and hands that to the
callback. -/
theorem hop_answer {s : NodeSelf} {id : HashType} {cb : FoundCb} (hcb : cb.Passive)
    (hne : s.self.id ≠ id) (h : s.Answers id) :
  hop s id cb = ([], [(s.firstSucc, 0)])
  := by
  have hanswer := nodeFindSuccessor_answer (p := idle s) cb hne h
  have hfound := nodeFound_passive hcb ((idle s).lock.touch (nodeFirstAliveSucc (idle s).node))
    (idle s).node.firstSucc 0
  dsimp only at hfound
  rw [hop, hanswer]
  simp only [Process.unlock_net, Process.unlock_log, hfound.1, hfound.2.1]
  simp [Outbox.asked, handedTo]

/-- Any other node asks one node, and hands nothing to the callback. -/
theorem hop_forward {s : NodeSelf} {id : HashType} (cb : FoundCb)
    (hne : s.self.id ≠ id) (h : ¬ s.Answers id) :
  hop s id cb = ([nodeClosestPrecedingNode s id], [])
  := by
  obtain ⟨q, -, hnet, ⟨us, hlog, hus⟩, hq⟩ := nodeFindSuccessor_forward (p := idle s) cb hne h
  rw [hop, hq]
  have hnil : handedTo cb us = [] := handedTo_eq_nil hus
  simp only [nodeFindSuccessorRemote, Remote.findSuccessorRemote, hnet, Process.emit_log, hlog,
    handedTo_append, hnil]
  simp [Outbox.asked, handedTo]

/-! ### The whole lookup -/

/-- The first successor of a node owns what it is the answer to. -/
theorem nearest_of_answers {M : Set HashType} {i id : HashType} {s : NodeSelf}
    (hself : s.self.id = i) (hnext : Next M i s.firstSucc.id) (hid : i ≠ id)
    (hans : s.Answers id) :
  Nearest M id s.firstSucc.id
  := by
  rcases hans with hrange | hone
  · rw [hself] at hrange
    apply hnext.nearest hid (nodeIdInRange_iff.mp hrange)
  · rw [← hone, hself] at hnext ⊢
    apply hnext.nearest_of_eq

theorem Stable.settled (h : o.Stable) {i : HashType} {s : NodeSelf} (hs : o.node i = some s) :
  Settled o.members i s
  where
    self_id := o.self_id hs
    succ_alive := h.succ_alive hs
    succ_next := h.succ_next hs
    finger := h.finger hs

/-- The node a lookup is forwarded to is a node of the ring, and not the forwarding one. -/
theorem Settled.forward_mem {M : Set HashType} {i id : HashType} {s : NodeSelf}
    (h : Settled M i s) (hans : ¬ s.Answers id) :
  (nodeClosestPrecedingNode s id).id ∈ M
    ∧ clockwise (nodeClosestPrecedingNode s id).id id < clockwise i id
  := by
  have hfinger : ∀ n, closestFinger s id = some n → n.id ∈ M ∧ n.id ≠ s.self.id := by
    intro n hn
    obtain ⟨⟨k, rfl⟩, hnull, -⟩ := closestFinger_spec hn
    rw [h.self_id]
    apply (h.finger k).resolve_left hnull
  constructor
  · rcases nodeClosestPrecedingNode_cases s id with hf | hf
    · apply (hfinger _ hf).1
    · rw [hf]
      apply h.succ_next.mem
  · rw [← h.self_id]
    apply nodeClosestPrecedingNode_closer (fun n hn => (hfinger n hn).2) hans

/-- A lookup of the node's own identifier, or of one that its first successor is the answer
to, ends there, and its first answer is the node that owns the identifier; unless the process
ends. -/
theorem lookup_answer {i id : HashType} {s : NodeSelf} (hs : o.node i = some s)
    (hnext : Next o.members i s.firstSucc.id) {cb : FoundCb} (hcb : cb.Passive)
    (h : i = id ∨ s.Answers id) (hlives : ¬ Crashes s id cb) :
  ∃ r rest, Nearest o.members id r.id
    ∧ ∀ fuel > 0, o.lookup id fuel i cb = some ((r, 0) :: rest)
  := by
  have hself := o.self_id hs
  by_cases hid : i = id
  · subst hid
    obtain ⟨rest, hrest⟩ := hop_self s hcb
    rw [hself] at hrest
    use s.self, rest
    constructor
    · rw [hself]
      exact ⟨⟨s, hs⟩, fun x _ => by simp⟩
    · intro fuel hfuel
      obtain ⟨fuel, rfl⟩ := Nat.exists_eq_add_one.mpr hfuel
      simp only [lookup, hs, if_neg hlives, hrest]
  · have hans := h.resolve_left hid
    use s.firstSucc, []
    constructor
    · apply nearest_of_answers hself hnext hid hans
    · intro fuel hfuel
      obtain ⟨fuel, rfl⟩ := Nat.exists_eq_add_one.mpr hfuel
      simp only [lookup, hs, if_neg hlives, hop_answer hcb (hself ▸ hid) hans]

/-- Any other lookup goes on at the node it is forwarded to. -/
theorem lookup_forward {i id : HashType} {s : NodeSelf} (hs : o.node i = some s) {cb : FoundCb}
    (hcb : cb.Passive) (hlive : cb ≠ .freed) (hid : i ≠ id) (hans : ¬ s.Answers id) (fuel : ℕ) :
  o.lookup id (fuel + 1) i cb
    = handOn [] (o.lookup id fuel (nodeClosestPrecedingNode s id).id relay)
  := by
  have hself := o.self_id hs
  have hlives : ¬ Crashes s id cb := by
    rw [crashes_iff hcb hlive, hself]
    exact fun h => hid h.1
  simp only [lookup, hs, if_neg hlives, hop_forward cb (hself ▸ hid) hans]

/-- The node `i` passes a lookup of `id` on to the node `j`. -/
def Passes (o : Overlay) (id i j : HashType) : Prop :=
  ∃ s, o.node i = some s ∧ i ≠ id ∧ ¬ s.Answers id ∧ (nodeClosestPrecedingNode s id).id = j

/-- A lookup of `id` for `cb`, started at the node `i`, does not come to the node that it is
for: it is not passed on to that node, nor started there for a callback that frees its
argument. -/
def Spares (o : Overlay) (id i : HashType) (cb : FoundCb) : Prop :=
  (i = id → cb.called ≠ .freed) ∧ ¬ Relation.TransGen (o.Passes id) i id

/-- The node that a lookup is passed on to is spared if the lookup spares its node. -/
theorem Spares.passes {id i j : HashType} {cb : FoundCb} (h : o.Spares id i cb)
    (hij : o.Passes id i j) :
  o.Spares id j relay
  := by
  constructor
  · rintro rfl
    exact absurd (.single hij) h.2
  · intro hgoes
    exact h.2 (.head hij hgoes)

/-- A node at which a lookup is answered lives on if the lookup spares the node that it is for. -/
theorem Spares.not_crashes {i id : HashType} {s : NodeSelf} {cb : FoundCb} (h : o.Spares id i cb)
    (hs : o.node i = some s) (hcb : cb.Passive) (hlive : cb ≠ .freed) :
  ¬ Crashes s id cb
  := by
  rw [crashes_iff hcb hlive, o.self_id hs]
  exact fun hcrash => h.1 hcrash.1 hcrash.2

/-- On a stable ring the lookup of an identifier from any node, when it spares the node that it
is for, ends within as many forwards as there are identifiers between, and its first answer is
the node that owns the identifier. -/
theorem Stable.lookup_first (h : o.Stable) {i : HashType} (hi : i ∈ o.members) {id : HashType}
    {cb : FoundCb} (hcb : cb.Passive) (hlive : cb ≠ .freed) (hspares : o.Spares id i cb) {fuel : ℕ}
    (hfuel : clockwise i id < fuel) :
  ∃ r hops rest, o.lookup id fuel i cb = some ((r, hops) :: rest) ∧ Nearest o.members id r.id
  := by
  -- the induction is on the fuel: every forward brings the lookup closer to `id`
  induction fuel generalizing i cb with
  | zero => omega
  | succ fuel ih =>
    obtain ⟨s, hs⟩ := hi
    by_cases hhere : i = id ∨ s.Answers id
    · have hlives := hspares.not_crashes hs hcb hlive
      obtain ⟨r, rest, hnear, hr⟩ := lookup_answer hs (h.succ_next hs) hcb hhere hlives
      use r, 0, rest, hr _ (Nat.succ_pos fuel)
    · obtain ⟨hid, hans⟩ := not_or.mp hhere
      obtain ⟨hmem, hlt⟩ := (h.settled hs).forward_mem hans
      have hrelay : relay.Passive := trivial
      have hspared := hspares.passes ⟨s, hs, hid, hans, rfl⟩
      obtain ⟨r, hops, rest, hr, hnear⟩ := ih hmem hrelay relay_ne_freed hspared (by omega)
      use r, hops + 1, []
      constructor
      · rw [lookup_forward hs hcb hlive hid hans, hr, handOn, List.nil_append]
      · apply hnear

/-- A lookup that comes to the node that it is for, and is answered through what that node
frees, has no answer: the process of the node ends. -/
theorem lookup_of_not_spares {i id : HashType} {cb : FoundCb} (hcb : cb.Passive) (hlive : cb ≠ .freed)
    (h : ¬ o.Spares id i cb) (fuel : ℕ) :
  o.lookup id fuel i cb = none
  := by
  -- the induction is on the fuel, along the nodes that the lookup is passed on to
  induction fuel generalizing i cb with
  | zero => rfl
  | succ fuel ih =>
    rw [Spares, not_and_or, not_not, Classical.not_imp, not_not] at h
    rcases h with ⟨rfl, hfreed⟩ | hgoes
    · cases hs : o.node i with
      | none => simp only [lookup, hs]
      | some s =>
        have hcrash : Crashes s i cb := (crashes_iff hcb hlive).mpr ⟨o.self_id hs, hfreed⟩
        simp only [lookup, hs, if_pos hcrash]
    · obtain ⟨j, ⟨s, hs, hid, hans, hj⟩, hrest⟩ := Relation.TransGen.head'_iff.mp hgoes
      have hspared : ¬ o.Spares id j relay := by
        intro hspares
        rcases Relation.reflTransGen_iff_eq_or_transGen.mp hrest with heq | htrans
        · exact hspares.1 heq.symm rfl
        · exact hspares.2 htrans
      have hrelay : relay.Passive := trivial
      rw [lookup_forward hs hcb hlive hid hans, hj, ih hrelay relay_ne_freed hspared, handOn]

/-- A lookup of `id` from the node `i` ends, and the first node it hands to its callback is the
one at the smallest clockwise distance from the identifier. -/
def FindsOwner (o : Overlay) (id i : HashType) (cb : FoundCb) : Prop :=
  ∃ n ∈ o.members, (∀ m ∈ o.members, (n - id).toNat ≤ (m - id).toNat)
    ∧ ∃ bound, ∀ fuel ≥ bound, ∃ r hops rest,
      o.lookup id fuel i cb = some ((r, hops) :: rest) ∧ r.id = n

/-- On a stable ring, whatever the fingers, a lookup of any identifier from any node finds the
node that owns the identifier, exactly when it spares the node that it is for. -/
theorem findsOwner_iff (h : o.Stable) {i : HashType} (hi : i ∈ o.members) (id : HashType)
    {cb : FoundCb} (hcb : cb.Passive) (hlive : cb ≠ .freed) :
  o.FindsOwner id i cb ↔ o.Spares id i cb
  := by
  constructor
  · rintro ⟨n, -, -, bound, hbound⟩
    by_contra hspares
    obtain ⟨r, hops, rest, hr, -⟩ := hbound bound le_rfl
    rw [lookup_of_not_spares hcb hlive hspares] at hr
    cases hr
  · intro hspares
    obtain ⟨n, hn⟩ := exists_nearest ⟨i, hi⟩ id
    use n, hn.mem, hn.le, clockwise i id + 1
    intro fuel hfuel
    have hlt : clockwise i id < fuel := by omega
    obtain ⟨r, hops, rest, hr, hnear⟩ := h.lookup_first hi hcb hlive hspares hlt
    use r, hops, rest, hr
    apply hnear.unique hn

/-! ### Rings of nodes in a list -/

/-- The network of the nodes in a list. -/
def ofList (l : List NodeSelf) : Overlay where
  node i := l.find? fun s => s.self.id == i
  self_id h := by simpa using List.find?_some h

theorem mem_of_ofList_node {l : List NodeSelf} {i : HashType} {s : NodeSelf}
    (h : (ofList l).node i = some s) :
  s ∈ l
  := List.mem_of_find?_eq_some h

theorem mem_members_ofList {l : List NodeSelf} {i : HashType} :
  i ∈ (ofList l).members ↔ ∃ s ∈ l, s.self.id = i
  := by
  constructor
  · rintro ⟨s, hs⟩
    exact ⟨s, mem_of_ofList_node hs, (ofList l).self_id hs⟩
  · rintro ⟨s, hs, hi⟩
    apply Option.isSome_iff_exists.mp
    rw [ofList, List.find?_isSome]
    exact ⟨s, hs, by simpa using hi⟩

/-- The entries of the node `s` are as they should be in a ring of the nodes `l`. -/
structure StableNode (l : List NodeSelf) (s : NodeSelf) : Prop where
  alive : s.Alive 0
  succ_mem : ∃ t ∈ l, t.self.id = (s.successor 0).id
  succ_next : ∀ t ∈ l, t.self.id ≠ s.self.id → (s.successor 0).id ≠ s.self.id
    ∧ clockwise s.self.id (s.successor 0).id ≤ clockwise s.self.id t.self.id
  finger : ∀ k, NullFinger (s.fingerTable k)
    ∨ (∃ t ∈ l, t.self.id = (s.fingerTable k).id) ∧ (s.fingerTable k).id ≠ s.self.id

theorem stable_ofList {l : List NodeSelf} (h : ∀ s ∈ l, StableNode l s) :
  (ofList l).Stable
  := by
  constructor
  · intro i s hs
    rw [nodeFirstAliveSucc_of_alive_zero (h s (mem_of_ofList_node hs)).alive]
    decide
  · intro i s hs
    have hnode := h s (mem_of_ofList_node hs)
    rw [firstSucc_of_alive_zero hnode.alive, ← (ofList l).self_id hs]
    constructor
    · exact mem_members_ofList.mpr hnode.succ_mem
    · intro x hx hxi
      obtain ⟨t, ht, rfl⟩ := mem_members_ofList.mp hx
      exact hnode.succ_next t ht hxi
  · intro i s hs k
    rw [← (ofList l).self_id hs]
    exact ((h s (mem_of_ofList_node hs)).finger k).imp_right
      fun hk => ⟨mem_members_ofList.mpr hk.1, hk.2⟩

/-- A node that knows one other node, and no fingers. -/
def knowing (i j : HashType) : NodeSelf :=
  { NodeSelf.blank with
    self := { id := i, IP := 1, port := 1 }
    successor := fun _ => { id := j, IP := 1, port := 1 } }

/-- A node that knows the node `j`, and whose finger `k` is the node `m`. -/
def pointing (i j : HashType) (k : Fin idBits) (m : HashType) : NodeSelf :=
  { knowing i j with
    fingerTable := fun k' => if k' = k then { id := m, IP := 1, port := 1 } else nullNode }

/-- The ring of the nodes `10`, `20` and `30`. The finger of `10` that is `16` away is `30`. -/
def threeNodes : List NodeSelf :=
  [pointing 10 20 5 30, knowing 20 30, knowing 30 10]

theorem stable_threeNodes :
  (ofList threeNodes).Stable
  := by
  apply stable_ofList
  intro s hs
  simp only [threeNodes, List.mem_cons, List.not_mem_nil, or_false] at hs
  rcases hs with rfl | rfl | rfl
  · exact ⟨by decide, by decide, by decide, by decide⟩
  · exact ⟨by decide, by decide, by decide, by decide⟩
  · exact ⟨by decide, by decide, by decide, by decide⟩

/-- The node `10` passes the lookup of `30` on to the node `30`. -/
theorem not_spares_threeNodes (cb : FoundCb) :
  ¬ (ofList threeNodes).Spares 30 10 cb
  := by
  rintro ⟨-, hgoes⟩
  apply hgoes
  exact .single ⟨_, rfl, by decide, by decide +kernel, by decide +kernel⟩

/-- The node that a lookup is passed on to is one of the ring. -/
theorem Stable.passes_mem (h : o.Stable) {id i j : HashType} (hij : o.Passes id i j) :
  j ∈ o.members
  := by
  obtain ⟨s, hs, -, hans, rfl⟩ := hij
  exact ((h.settled hs).forward_mem hans).1

/-- A lookup of an identifier that no node has spares every node. -/
theorem Spares.of_notMem {id i : HashType} (hpasses : ∀ {i j}, o.Passes id i j → j ∈ o.members)
    (hi : i ∈ o.members) (hid : id ∉ o.members) (cb : FoundCb) :
  o.Spares id i cb
  := by
  constructor
  · rintro rfl
    exact absurd hi hid
  · intro hgoes
    obtain ⟨j, -, hj⟩ := Relation.TransGen.tail'_iff.mp hgoes
    exact hid (hpasses hj)

/-- The identifier `26` is found from the node `10`, and the node `30` is not. -/
theorem findsOwner_iff_threeNodes :
  (ofList threeNodes).FindsOwner 26 10 (.app 0) ∧ ¬ (ofList threeNodes).FindsOwner 30 10 (.app 0)
  := by
  have hten : 10 ∈ (ofList threeNodes).members := mem_members_ofList.mpr (by decide)
  have happ : (FoundCb.app 0).Passive := trivial
  have hlive : FoundCb.app 0 ≠ .freed := by decide
  constructor
  · apply (findsOwner_iff stable_threeNodes hten 26 happ hlive).mpr
    apply Spares.of_notMem stable_threeNodes.passes_mem hten
    rw [mem_members_ofList]
    decide
  · rw [findsOwner_iff stable_threeNodes hten 30 happ hlive]
    apply not_spares_threeNodes

/-- The lookup of `30` from the node `10` kills the node that it is for. -/
theorem lookup_kills_owner :
  ¬ ∀ (o : Overlay) (i id : HashType) (cb : FoundCb), o.Stable → i ∈ o.members → cb.Passive →
    cb ≠ .freed → o.FindsOwner id i cb
  := by
  intro h
  have hten : 10 ∈ (ofList threeNodes).members := mem_members_ofList.mpr (by decide)
  obtain ⟨n, -, -, bound, hfinds⟩ :=
    h (ofList threeNodes) 10 30 (.app 0) stable_threeNodes hten trivial (by decide)
  obtain ⟨r, hops, rest, hr, -⟩ := hfinds bound le_rfl
  have happ : (FoundCb.app 0).Passive := trivial
  rw [lookup_of_not_spares happ (by decide) (not_spares_threeNodes _)] at hr
  cases hr

end Overlay
