import LibDht.Protocol.Step
import LibDht.Ring.Fingers
import Mathlib.Logic.Relation

/-!
# A round of finger lookups

On a stable ring the nodes look up their fingers again and again, the application looks up
identifiers, and requests and replies are delivered in any order. One round of one node is
marked: its messages, and those sent on their behalf by other nodes, carry a mark that no
node reads. As long as a marked lookup for a finger has not come back the finger may be
anything the ring allows; when no marked message is in flight any more, every finger is what
it should be. Replies of earlier rounds do no harm: a finger that is right stays right.

A node that a lookup of its own identifier comes to crashes before its answer leaves. It is
not there any more then, and the request, like all others to it, stays in flight for ever.
-/

open Circle Relation

/-- The processes of a network and the messages in flight, with the mark of the round. -/
structure Traffic where
  peer : HashType → Option Peer
  msgs : List (Msg × Bool)

namespace Traffic

/-- The network without the marks. -/
def net (t : Traffic) : Net where
  peer := t.peer
  msgs := t.msgs.map Prod.fst

/-- The network after the process `i` has run to the state `p`, serving the stack `frames`.
What it sends carries the mark `mark`. -/
def act (t : Traffic) (i : HashType) (frames : List Frame) (p : Process Outbox) (mark : Bool) :
    Traffic where
  peer := Function.update t.peer i (some { node := p.node, joined := true })
  msgs := t.msgs ++ (route i frames p.net.sent).map (·, mark)

/-- One step of a network that does lookups. What a lookup is started with carries no mark,
and what is sent on behalf of a message carries that of the message. A message without the
mark may be lost. A node that is asked for its own identifier crashes. -/
inductive Step : Traffic → Traffic → Prop where
  | fixFingers {t : Traffic} {i : HashType} {s : NodeSelf}
      (hi : t.peer i = some { node := s, joined := true }) :
      Step t (t.act i [] (nodeFixFingers (idle s)) false)
  | lookup {t : Traffic} {i : HashType} {s : NodeSelf} (id : HashType) (arg : ℕ)
      (hi : t.peer i = some { node := s, joined := true }) :
      Step t (t.act i [] (nodeFindSuccessor (idle s) id (.app arg)).2 false)
  | succRequest {t : Traffic} {dest id : HashType} {frames : List Frame} {mark : Bool}
      {s : NodeSelf} {before after : List (Msg × Bool)}
      (hm : t.msgs = before ++ (.succRequest dest id frames, mark) :: after)
      (hd : t.peer dest = some { node := s, joined := true }) (hne : dest ≠ id) :
      Step t ({ t with msgs := before ++ after }.act dest frames
        (nodeFindSuccessor (idle s) id relay).2 mark)
  | crash {t : Traffic} {id : HashType} {frames : List Frame} {mark : Bool}
      (hm : (.succRequest id id frames, mark) ∈ t.msgs) :
      Step t { t with peer := Function.update t.peer id none }
  | succReply {t : Traffic} {node : NodeInfo} {hops : Int16} {f : Frame} {frames : List Frame}
      {mark : Bool} {s : NodeSelf} {before after : List (Msg × Bool)}
      (hm : t.msgs = before ++ (.succReply node hops (f :: frames), mark) :: after)
      (hd : t.peer f.owner = some { node := s, joined := true }) :
      Step t ({ t with msgs := before ++ after }.act f.owner frames
        (nodeFound (idle s) { cb := f.cb, node := node, hops := hops }) mark)
  | lose {t : Traffic} {m : Msg} {before after : List (Msg × Bool)}
      (hm : t.msgs = before ++ (m, false) :: after) :
      Step t { t with msgs := before ++ after }

/-- Without the marks, a step in which no node crashes is one of a network without failures. -/
theorem Step.forget {t t' : Traffic} (h : Step t t') :
  Net.Step t.net t'.net ∨ ∃ id frames, .succRequest id id frames ∈ t.net.msgs ∧ t'.peer id = none
  := by
  have hmap : ∀ {m : Msg} {mark : Bool} {before after : List (Msg × Bool)},
      t.msgs = before ++ (m, mark) :: after →
        t.net.msgs = before.map Prod.fst ++ m :: after.map Prod.fst := by
    intro m mark before after hm
    simp [net, hm]
  have hact : ∀ (before after : List (Msg × Bool)) (i : HashType) (frames : List Frame)
      (p : Process Outbox) (mark : Bool),
      ({ t with msgs := before ++ after }.act i frames p mark).net
        = { t.net with msgs := before.map Prod.fst ++ after.map Prod.fst }.act i true frames p := by
    intro before after i frames p mark
    simp [net, act, Net.act, List.map_map, Function.comp_def]
  have hstart : ∀ (i : HashType) (p : Process Outbox),
      (t.act i [] p false).net = t.net.act i true [] p := by
    intro i p
    simp [net, act, Net.act, List.map_map, Function.comp_def]
  cases h with
  | fixFingers hi =>
    left
    rw [hstart]
    exact Net.Step.timer .fixFingers hi
  | lookup id arg hi =>
    left
    rw [hstart]
    exact Net.Step.lookup id arg hi
  | succRequest hm hd hne =>
    left
    rw [hact]
    exact Net.Step.succRequest (hmap hm) hd hne
  | crash hm =>
    right
    exact ⟨_, _, List.mem_map_of_mem hm, Function.update_self ..⟩
  | succReply hm hd =>
    left
    rw [hact]
    exact Net.Step.succReply (b := true) (hmap hm) hd
  | lose hm =>
    left
    have hlose := Net.Step.lose (hmap hm)
    rw [← List.map_append] at hlose
    exact hlose

end Traffic

/-! ### The finger that is right -/

/-- The finger `k` of the node `i` is the node met first from `2^(k-1)` after `i` on, or null
when that is `i` itself. -/
def FingerRight (M : Set HashType) (i : HashType) (s : NodeSelf) (k : Fin idBits) : Prop :=
  ∃ m, Nearest M (fingerStart i k) m
    ∧ if m = i then s.fingerTable k = nullNode else (s.fingerTable k).id = m

section

variable {M : Set HashType} {i id : HashType} {s : NodeSelf}

/-- With the node that owns its point a finger is right. The others are as they were, and the
node fits into the ring as it did. -/
theorem fingerUpdate_right {p : Process Outbox} (h : Overlay.Settled M i p.node) {k : Fin idBits}
    {n : NodeInfo} (hn : Nearest M (fingerStart i k) n.id) :
  let q := fingerUpdate p n k
  Overlay.Settled M i q.node ∧ FingerRight M i q.node k
    ∧ ∀ j, FingerRight M i p.node j → FingerRight M i q.node j
  := by
  have hself : p.node.self.id = i := h.self_id
  have hentry : (fingerUpdate p n k).node.fingerTable k = if n.id = i then nullNode else n := by
    simp only [fingerUpdate, Function.update_self, hself, ne_eq, nodeIdCompare_eq_zero, ite_not]
    simp only [eq_comm]
  have hother : ∀ j ≠ k, (fingerUpdate p n k).node.fingerTable j = p.node.fingerTable j := by
    intro j hj
    simp only [fingerUpdate, Function.update_of_ne hj]
  have hfirst : nodeFirstAliveSucc (fingerUpdate p n k).node = nodeFirstAliveSucc p.node :=
    nodeFirstAliveSucc_congr rfl
  have hsucc : (fingerUpdate p n k).node.firstSucc = p.node.firstSucc :=
    firstSucc_congr rfl rfl
  have hright : FingerRight M i (fingerUpdate p n k).node k := by
    use n.id, hn
    rw [hentry]
    split_ifs
    · rfl
    · rfl
  refine ⟨?_, hright, ?_⟩
  · constructor
    · exact hself
    · rw [hfirst]
      exact h.succ_alive
    · rw [hsucc]
      exact h.succ_next
    · intro j
      by_cases hj : j = k
      · subst hj
        rw [hentry]
        split_ifs with heq
        · left
          left
          rfl
        · right
          exact ⟨hn.mem, heq⟩
      · rw [hother j hj]
        apply h.finger
  · intro j hj
    by_cases hjk : j = k
    · subst hjk
      exact hright
    · obtain ⟨m, hm, hentry'⟩ := hj
      use m, hm
      rw [hother j hjk]
      exact hentry'

/-! ### The round at the node -/

/-- What `node_fix_a_finger` looks up for a finger that exists. -/
theorem nodeFixAFinger_coe (p : Process Outbox) {k : Fin idBits} (hk : k ≠ 0) :
  nodeFixAFinger p (k.val : ℤ)
    = (nodeFindSuccessor p (fingerStart p.node.self.id k) (.fingerUpdate k)).2
  := by
  have hpos : 0 < k.val := Nat.pos_of_ne_zero fun h => hk (Fin.ext h)
  have hlt : k.val < 32 := k.isLt
  rw [nodeFixAFinger, dif_neg (by omega)]
  simp only [twoToTheN_toNat k hk, Int.toNat_natCast, fingerStart]

/-- The node has dealt with the fingers below `n` in a round that began in the state `s₀`. -/
structure Fixing (M : Set HashType) (i : HashType) (s₀ : NodeSelf) (n : ℕ) (p : Process Outbox) :
    Prop where
  settled : Overlay.Settled M i p.node
  sent : ∀ a ∈ p.net.sent, ∃ dest k, k ≠ 0 ∧ dest.id ∈ M
    ∧ a = .findSuccessor dest (fingerStart i k) (.fingerUpdate k)
  kept : ∀ k, FingerRight M i s₀ k → FingerRight M i p.node k
  done : ∀ k : Fin idBits, k ≠ 0 → k.val < n → FingerRight M i p.node k
    ∨ ∃ dest, Sent.findSuccessor dest (fingerStart i k) (.fingerUpdate k) ∈ p.net.sent

theorem Fixing.start (h : Overlay.Settled M i s) :
  Fixing M i s 0 (idle s)
  where
    settled := h
    sent a ha := by cases ha
    kept k hk := hk
    done k _ hlt := absurd hlt (Nat.not_lt_zero _)

section

variable {s₀ : NodeSelf} {p : Process Outbox} {k : Fin idBits}

theorem Fixing.self_ne_fingerStart (h : Fixing M i s₀ k.val p) :
  p.node.self.id ≠ fingerStart i k
  := by
  have hdist := clockwise_fingerStart i k
  have hpow : 0 < 2 ^ (k.val - 1) := Nat.two_pow_pos _
  rw [h.settled.self_id]
  intro heq
  rw [← heq, clockwise_self] at hdist
  omega

/-- The fingers up to `k` are done when `k` is, and what was done before stays. -/
theorem Fixing.done_succ {q : Process Outbox} (h : Fixing M i s₀ k.val p)
    (hk : FingerRight M i q.node k
      ∨ ∃ dest, Sent.findSuccessor dest (fingerStart i k) (.fingerUpdate k) ∈ q.net.sent)
    (hright : ∀ j, FingerRight M i p.node j → FingerRight M i q.node j)
    (hsent : ∀ a ∈ p.net.sent, a ∈ q.net.sent) :
  ∀ j : Fin idBits, j ≠ 0 → j.val < k.val + 1 → FingerRight M i q.node j
    ∨ ∃ dest, Sent.findSuccessor dest (fingerStart i j) (.fingerUpdate j) ∈ q.net.sent
  := by
  intro j hj hlt
  by_cases hjk : j = k
  · rw [hjk]
    exact hk
  · have hne : j.val ≠ k.val := fun heq => hjk (Fin.ext heq)
    rcases h.done j hj (by omega) with hdone | ⟨dest, hdest⟩
    · exact Or.inl (hright j hdone)
    · exact Or.inr ⟨dest, hsent _ hdest⟩

/-- The finger is found at once. -/
theorem Fixing.found (h : Fixing M i s₀ k.val p) (hans : p.node.Answers (fingerStart i k)) :
  Fixing M i s₀ (k.val + 1) (nodeFindSuccessor p (fingerStart i k) (.fingerUpdate k)).2
  := by
  have hne := h.self_ne_fingerStart
  have hself : p.node.self.id = i := h.settled.self_id
  rw [nodeFindSuccessor_answer _ hne hans]
  have hnear := Overlay.nearest_of_answers hself h.settled.succ_next (hself ▸ hne) hans
  obtain ⟨hsettled, hright, hkept⟩ := fingerUpdate_right (p := p) h.settled hnear
  constructor
  · exact hsettled
  · exact h.sent
  · intro j hj
    exact hkept j (h.kept j hj)
  · exact h.done_succ (Or.inl hright) hkept fun a ha => ha

/-- The finger is looked for. -/
theorem Fixing.sought (h : Fixing M i s₀ k.val p) (hk : k ≠ 0)
    (hans : ¬ p.node.Answers (fingerStart i k)) :
  Fixing M i s₀ (k.val + 1) (nodeFindSuccessor p (fingerStart i k) (.fingerUpdate k)).2
  := by
  obtain ⟨q, hnode, hnet, -, hq⟩ :=
    nodeFindSuccessor_forward (.fingerUpdate k) h.self_ne_fingerStart hans
  have hmem := (h.settled.forward_mem hans).1
  have hsent : ∀ a, a ∈ (nodeFindSuccessor p (fingerStart i k) (.fingerUpdate k)).2.net.sent
      ↔ a ∈ p.net.sent ∨ a = .findSuccessor (nodeClosestPrecedingNode p.node (fingerStart i k))
        (fingerStart i k) (.fingerUpdate k) := by
    intro a
    simp only [hq, nodeFindSuccessorRemote, Remote.findSuccessorRemote, hnet, List.mem_append,
      List.mem_singleton]
  have hsame : (nodeFindSuccessor p (fingerStart i k) (.fingerUpdate k)).2.node = p.node := by
    rw [hq, nodeFindSuccessorRemote_node, hnode]
  constructor
  · rw [hsame]
    exact h.settled
  · intro a ha
    rcases (hsent a).mp ha with ha | rfl
    · exact h.sent a ha
    · exact ⟨_, k, hk, hmem, rfl⟩
  · rw [hsame]
    exact h.kept
  · apply h.done_succ
    · exact Or.inr ⟨_, (hsent _).mpr (Or.inr rfl)⟩
    · intro j hj
      rw [hsame]
      exact hj
    · exact fun a ha => (hsent a).mpr (Or.inl ha)

/-- One finger more: it is found at once, or looked for. -/
theorem Fixing.fix_a_finger (k : Fin idBits) (h : Fixing M i s₀ k.val p) :
  Fixing M i s₀ (k.val + 1) (nodeFixAFinger p (k.val : ℤ))
  := by
  by_cases hk : k = 0
  · subst hk
    constructor
    · exact h.settled
    · exact h.sent
    · exact h.kept
    · intro j hj hlt
      exact absurd (Fin.ext (Nat.lt_one_iff.mp hlt)) hj
  · rw [nodeFixAFinger_coe p hk, h.settled.self_id]
    by_cases hans : p.node.Answers (fingerStart i k)
    · exact h.found hans
    · exact h.sought hk hans

end

/-- A whole round: every finger is right or is being looked for. -/
theorem fixFingers_fixing (h : Overlay.Settled M i s) :
  Fixing M i s idBits (nodeFixFingers (idle s))
  := by
  have hfold : ∀ n ≤ idBits,
      Fixing M i s n ((List.range n).foldl (fun p (fnum : ℕ) => nodeFixAFinger p fnum) (idle s)) := by
    intro n hn
    induction n with
    | zero => exact Fixing.start h
    | succ n ih =>
      rw [List.range_succ, List.foldl_append]
      exact Fixing.fix_a_finger ⟨n, hn⟩ (ih (Nat.le_of_succ_le hn))
  exact hfold idBits le_rfl

/-! ### Lookups in flight -/

/-- The stack of a lookup of `id`: those who forwarded it, and at the bottom the application,
or a node that looks for the finger that `id` belongs to. -/
def Asking (M : Set HashType) (id : HashType) : List Frame → Prop
  | [] => False
  | [f] => f.owner ∈ M
    ∧ ((∃ arg, f.cb = .app arg) ∨ ∃ k, k ≠ 0 ∧ f.cb = .fingerUpdate k ∧ id = fingerStart f.owner k)
  | f :: g :: frames => f.owner ∈ M ∧ f.cb = relay ∧ Asking M id (g :: frames)

/-- A message in flight is for a node of the ring, and a reply names the node that owns what
was looked up. -/
def MsgRight (M : Set HashType) : Msg → Prop
  | .succRequest dest id frames => dest ∈ M ∧ Asking M id frames
  | .succReply node _ frames => ∃ id, Nearest M id node.id ∧ Asking M id frames
  | _ => False

/-- Whom a lookup in flight is for. -/
def Msg.bottom : Msg → Option Frame
  | .succRequest _ _ frames => frames.getLast?
  | .succReply _ _ frames => frames.getLast?
  | _ => none

/-- A node that is asked for another identifier than its own stays as it is, and sends one
message on: an answer, or a request to another node. -/
theorem serve_succRequest (h : Overlay.Settled M i s) (hi : i ∈ M) {frames : List Frame}
    (hframes : Asking M id frames) (hid : i ≠ id) :
  let p := (nodeFindSuccessor (idle s) id relay).2
  p.node = s ∧ ∃ m, route i frames p.net.sent = [m] ∧ MsgRight M m
    ∧ m.bottom = frames.getLast?
  := by
  have hself : (idle s).node.self.id = i := h.self_id
  by_cases hans : s.Answers id
  · have hfound := nodeFindSuccessor_answer (p := idle s) relay (hself ▸ hid) hans
    rw [hfound]
    have hnear := Overlay.nearest_of_answers h.self_id h.succ_next hid hans
    exact ⟨rfl, _, rfl, ⟨id, hnear, hframes⟩, rfl⟩
  · obtain ⟨q, hnode, hnet, -, hq⟩ :=
      nodeFindSuccessor_forward (p := idle s) relay (hself ▸ hid) hans
    rw [hq]
    refine ⟨hnode, .succRequest (nodeClosestPrecedingNode s id).id id
      ({ owner := i, cb := relay } :: frames), ?_, ⟨(h.forward_mem hans).1, ?_⟩, ?_⟩
    · simp [nodeFindSuccessorRemote, Remote.findSuccessorRemote, hnet, route, Sent.request,
        Sent.answer]
    · cases frames with
      | nil => exact absurd hframes not_false
      | cons f frames => exact ⟨hi, rfl, hframes⟩
    · cases frames with
      | nil => exact absurd hframes not_false
      | cons f frames => exact List.getLast?_cons_cons

/-- A node that starts a lookup for the application stays as it is, and sends at most a
request, which is for the application. -/
theorem serve_lookup (h : Overlay.Settled M i s) (hi : i ∈ M) (id : HashType) (arg : ℕ) :
  let p := (nodeFindSuccessor (idle s) id (.app arg)).2
  p.node = s ∧ ∀ m ∈ route i [] p.net.sent, MsgRight M m
  := by
  have hself : (idle s).node.self.id = i := h.self_id
  by_cases hid : i = id
  · subst hid
    have hfound := nodeFindSuccessor_self (p := idle s) (.app arg) hself
    dsimp only at hfound
    rw [hfound]
    refine ⟨rfl, ?_⟩
    intro m hm
    cases hm
  · by_cases hans : s.Answers id
    · have hfound := nodeFindSuccessor_answer (p := idle s) (.app arg) (hself ▸ hid) hans
      rw [hfound]
      refine ⟨rfl, ?_⟩
      intro m hm
      cases hm
    · obtain ⟨q, hnode, hnet, -, hq⟩ :=
        nodeFindSuccessor_forward (p := idle s) (.app arg) (hself ▸ hid) hans
      rw [hq]
      refine ⟨hnode, ?_⟩
      intro m hm
      simp only [nodeFindSuccessorRemote, Remote.findSuccessorRemote, hnet, idle_sent, route,
        Sent.request, Sent.answer, List.nil_append, List.filterMap_cons, List.filterMap_nil,
        List.take_nil, List.append_nil, List.mem_singleton] at hm
      rw [hm]
      exact ⟨(h.forward_mem hans).1, hi, Or.inl ⟨arg, rfl⟩⟩

/-- A reply that is handed on leaves the node as it is, and becomes one reply. -/
theorem serve_relayed (i : HashType) (s : NodeSelf) {node : NodeInfo} (hops : Int16)
    {frames : List Frame}
    (hnear : Nearest M id node.id) (hframes : Asking M id frames) :
  let p := nodeFound (idle s) { cb := relay, node := node, hops := hops }
  p.node = s ∧ ∃ m, route i frames p.net.sent = [m] ∧ MsgRight M m
    ∧ m.bottom = frames.getLast?
  := ⟨rfl, _, rfl, ⟨id, hnear, hframes⟩, rfl⟩

/-- What a round sends are lookups for its fingers. -/
theorem Fixing.route_spec {s₀ : NodeSelf} {n : ℕ} {p : Process Outbox} (h : Fixing M i s₀ n p)
    (hi : i ∈ M) :
  (∀ m ∈ route i [] p.net.sent, MsgRight M m)
    ∧ ∀ k dest, Sent.findSuccessor dest (fingerStart i k) (.fingerUpdate k) ∈ p.net.sent →
      ∃ m ∈ route i [] p.net.sent, m.bottom = some { owner := i, cb := .fingerUpdate k }
  := by
  constructor
  · intro m hm
    rcases List.mem_append.mp hm with hm | hm
    · obtain ⟨a, ha, hreq⟩ := List.mem_filterMap.mp hm
      obtain ⟨dest, k, hk, hdest, rfl⟩ := h.sent a ha
      cases hreq
      exact ⟨hdest, hi, Or.inr ⟨k, hk, rfl, rfl⟩⟩
    · obtain ⟨a, ha, hans⟩ := List.mem_filterMap.mp (List.mem_of_mem_take hm)
      obtain ⟨dest, k, -, -, rfl⟩ := h.sent a ha
      cases hans
  · intro k dest hsent
    refine ⟨.succRequest dest.id (fingerStart i k) [{ owner := i, cb := .fingerUpdate k }], ?_, rfl⟩
    apply List.mem_append_left
    exact List.mem_filterMap.mpr ⟨_, hsent, rfl⟩

end

/-! ### The whole run -/

namespace Traffic

variable {M : Set HashType} {i : HashType} {t t' : Traffic}

/-- The ring is stable, and the messages in flight are right. -/
structure Flowing (M : Set HashType) (t : Traffic) : Prop where
  peer : ∀ {j peer}, t.peer j = some peer → j ∈ M ∧ Overlay.Settled M j peer.node
  msg : ∀ m ∈ t.msgs, MsgRight M m.1

/-- Every finger of the node `i`, as long as it runs, is right, or a marked lookup for it is in
flight. -/
def Owed (M : Set HashType) (i : HashType) (t : Traffic) : Prop :=
  ∀ s, t.peer i = some { node := s, joined := true } → ∀ k : Fin idBits, k.val ≠ 0 →
    FingerRight M i s k
      ∨ ∃ m ∈ t.msgs, m.2 = true ∧ m.1.bottom = some { owner := i, cb := .fingerUpdate k }

/-- The ring stays stable when a process runs that fits into it and sends what is right. -/
theorem Flowing.act (h : Flowing M t) {j : HashType} {frames : List Frame} {p : Process Outbox}
    {mark : Bool} {msgs : List (Msg × Bool)} (hj : j ∈ M) (hp : Overlay.Settled M j p.node)
    (hmsgs : ∀ m ∈ msgs, m ∈ t.msgs) (hroute : ∀ m ∈ route j frames p.net.sent, MsgRight M m) :
  Flowing M ({ t with msgs := msgs }.act j frames p mark)
  := by
  constructor
  · intro j' peer' hj'
    by_cases heq : j' = j
    · subst heq
      simp only [Traffic.act, Function.update_self, Option.some.injEq] at hj'
      subst hj'
      exact ⟨hj, hp⟩
    · simp only [Traffic.act, Function.update_of_ne heq] at hj'
      exact h.peer hj'
  · intro m hm
    rcases List.mem_append.mp hm with hm | hm
    · exact h.msg m (hmsgs m hm)
    · obtain ⟨m', hm', rfl⟩ := List.mem_map.mp hm
      exact hroute m' hm'

/-- What is owed stays owed when a process runs that keeps its right fingers: every marked
message that is not kept is sent on with the same bottom, or the finger it is for is right. -/
theorem Owed.act (h : Owed M i t) {j : HashType} {s : NodeSelf} {frames : List Frame}
    {p : Process Outbox} {mark : Bool} {msgs : List (Msg × Bool)}
    (hj : t.peer j = some { node := s, joined := true })
    (hkept : ∀ k, FingerRight M j s k → FingerRight M j p.node k)
    (hmsgs : ∀ m ∈ t.msgs, m.2 = true →
      ∀ k, m.1.bottom = some { owner := i, cb := .fingerUpdate k } → m ∈ msgs
        ∨ (∃ m' ∈ route j frames p.net.sent, mark = true ∧ m'.bottom = m.1.bottom)
        ∨ j = i ∧ FingerRight M i p.node k) :
  Owed M i ({ t with msgs := msgs }.act j frames p mark)
  := by
  intro s' hs' k hk
  -- the process that runs is the node `i`, or it leaves that as it is
  have hbefore : ∃ s₀, t.peer i = some { node := s₀, joined := true }
      ∧ (∀ k, FingerRight M i s₀ k → FingerRight M i s' k) ∧ (j = i → s' = p.node) := by
    by_cases heq : j = i
    · subst heq
      simp only [Traffic.act, Function.update_self, Option.some.injEq] at hs'
      cases hs'
      exact ⟨s, hj, hkept, fun _ => rfl⟩
    · simp only [Traffic.act, Function.update_of_ne (Ne.symm heq)] at hs'
      exact ⟨s', hs', fun k hk => hk, fun h => absurd h heq⟩
  obtain ⟨s₀, hs₀, hkept', hself⟩ := hbefore
  rcases h s₀ hs₀ k hk with hright | ⟨m, hm, hmark, hbottom⟩
  · left
    exact hkept' k hright
  · rcases hmsgs m hm hmark k hbottom with hmem | ⟨m', hm', hmark', hbottom'⟩ | ⟨hji, hright⟩
    · right
      exact ⟨m, List.mem_append_left _ hmem, hmark, hbottom⟩
    · right
      refine ⟨(m', mark), List.mem_append_right _ (List.mem_map.mpr ⟨m', hm', rfl⟩), hmark', ?_⟩
      exact hbottom'.trans hbottom
    · left
      rw [hself hji]
      exact hright

/-- What a reply does at the node that it is handed to. -/
theorem serve_succReply {s : NodeSelf} {id : HashType} {node : NodeInfo} {hops : Int16} {f : Frame}
    {frames : List Frame} (h : Overlay.Settled M f.owner s) (hnear : Nearest M id node.id)
    (hframes : Asking M id (f :: frames)) :
  let p := nodeFound (idle s) { cb := f.cb, node := node, hops := hops }
  Overlay.Settled M f.owner p.node
    ∧ (∀ k, FingerRight M f.owner s k → FingerRight M f.owner p.node k)
    ∧ (∀ m ∈ route f.owner frames p.net.sent, MsgRight M m)
    ∧ ∀ k, (f :: frames).getLast? = some { owner := i, cb := .fingerUpdate k } →
      (∃ m ∈ route f.owner frames p.net.sent, m.bottom = (f :: frames).getLast?)
        ∨ f.owner = i ∧ FingerRight M i p.node k
  := by
  obtain ⟨owner, cb⟩ := f
  cases frames with
  | cons g frames =>
    -- a node that forwarded the lookup hands the reply on
    obtain ⟨-, rfl, hrest⟩ := hframes
    obtain ⟨hnode, m, hroute, hright, hbottom⟩ := serve_relayed owner s hops hnear hrest
    dsimp only at hnode hroute ⊢
    rw [hnode, hroute]
    refine ⟨h, fun k hk => hk, ?_, ?_⟩
    · intro m' hm'
      rw [List.mem_singleton.mp hm']
      exact hright
    · intro k hk
      left
      refine ⟨m, List.mem_singleton_self m, ?_⟩
      rw [hbottom, List.getLast?_cons_cons]
  | nil =>
    obtain ⟨-, ⟨arg, hcb⟩ | ⟨k, hk, hcb, hid⟩⟩ := hframes
    · -- the application
      dsimp only at hcb
      subst hcb
      refine ⟨h, fun k hk => hk, ?_, ?_⟩
      · intro m hm
        cases hm
      · intro k hk
        cases hk
    · -- a finger
      dsimp only at hcb hid
      subst hcb hid
      obtain ⟨hsettled, hright, hkept⟩ := fingerUpdate_right
        (p := (idle s).emit (.found (.fingerUpdate k) node hops)) h hnear
      refine ⟨hsettled, hkept, ?_, ?_⟩
      · intro m hm
        cases hm
      · intro k' hk'
        right
        cases hk'
        exact ⟨rfl, hright⟩

theorem Flowing.step (h : Flowing M t) (hs : Step t t') :
  Flowing M t'
  := by
  have hkept : ∀ {m : Msg × Bool} {before after : List (Msg × Bool)},
      t.msgs = before ++ m :: after → ∀ m' ∈ before ++ after, m' ∈ t.msgs := by
    intro m before after hm m' hm'
    rw [hm]
    simp only [List.mem_append, List.mem_cons] at hm' ⊢
    tauto
  cases hs with
  | fixFingers hi =>
    obtain ⟨hmem, hsettled⟩ := h.peer hi
    have hfixing := fixFingers_fixing hsettled
    exact h.act hmem hfixing.settled (fun m hm => hm) (hfixing.route_spec hmem).1
  | lookup id arg hi =>
    obtain ⟨hmem, hsettled⟩ := h.peer hi
    obtain ⟨hnode, hroute⟩ := serve_lookup hsettled hmem id arg
    exact h.act hmem (hnode ▸ hsettled) (fun m hm => hm) hroute
  | succRequest hm hd hne =>
    obtain ⟨hmem, hsettled⟩ := h.peer hd
    obtain ⟨-, hframes⟩ := h.msg _ (hm ▸ List.mem_append_right _ List.mem_cons_self)
    obtain ⟨hnode, m, hroute, hright, -⟩ := serve_succRequest hsettled hmem hframes hne
    apply h.act hmem (hnode ▸ hsettled) (hkept hm)
    intro m' hm'
    rw [hroute] at hm'
    rw [List.mem_singleton.mp hm']
    exact hright
  | succReply hm hd =>
    obtain ⟨hmem, hsettled⟩ := h.peer hd
    obtain ⟨id, hnear, hframes⟩ := h.msg _ (hm ▸ List.mem_append_right _ List.mem_cons_self)
    obtain ⟨hsettled', -, hroute, -⟩ := serve_succReply (i := id) hsettled hnear hframes
    exact h.act hmem hsettled' (hkept hm) hroute
  | @crash id _ _ hm =>
    refine ⟨?_, h.msg⟩
    intro j peer hj
    by_cases hji : j = id
    · simp only [hji, Function.update_self] at hj
      cases hj
    · exact h.peer ((Function.update_of_ne hji _ _).symm.trans hj)
  | lose hm => exact ⟨h.peer, fun m' hm' => h.msg m' (hkept hm m' hm')⟩

theorem Owed.step (h : Owed M i t) (hflow : Flowing M t) (hs : Step t t') :
  Owed M i t'
  := by
  have hrest : ∀ {m m' : Msg × Bool} {before after : List (Msg × Bool)},
      t.msgs = before ++ m :: after → m' ∈ t.msgs → m' = m ∨ m' ∈ before ++ after := by
    intro m m' before after hm hm'
    rw [hm] at hm'
    simp only [List.mem_append, List.mem_cons] at hm' ⊢
    tauto
  cases hs with
  | fixFingers hi =>
    obtain ⟨-, hsettled⟩ := hflow.peer hi
    exact h.act hi (fixFingers_fixing hsettled).kept fun m hm _ _ _ => Or.inl hm
  | lookup id arg hi =>
    obtain ⟨hmem, hsettled⟩ := hflow.peer hi
    obtain ⟨hnode, -⟩ := serve_lookup hsettled hmem id arg
    apply h.act hi
    · intro k hk
      rw [hnode]
      exact hk
    · exact fun m hm _ _ _ => Or.inl hm
  | succRequest hm hd hne =>
    obtain ⟨hmem, hsettled⟩ := hflow.peer hd
    obtain ⟨-, hframes⟩ := hflow.msg _ (hm ▸ List.mem_append_right _ List.mem_cons_self)
    obtain ⟨hnode, m, hroute, -, hbottom⟩ := serve_succRequest hsettled hmem hframes hne
    apply h.act hd
    · intro k hk
      rw [hnode]
      exact hk
    · intro m' hm' hmark k hk
      rcases hrest hm hm' with rfl | hm'
      · right
        left
        rw [hroute]
        exact ⟨m, List.mem_singleton_self m, hmark, hbottom⟩
      · left
        exact hm'
  | succReply hm hd =>
    obtain ⟨-, hsettled⟩ := hflow.peer hd
    obtain ⟨id, hnear, hframes⟩ := hflow.msg _ (hm ▸ List.mem_append_right _ List.mem_cons_self)
    obtain ⟨-, hkept, -, hbottom⟩ := serve_succReply (i := i) hsettled hnear hframes
    apply h.act hd hkept
    intro m' hm' hmark k hk
    rcases hrest hm hm' with rfl | hm'
    · right
      rcases hbottom k hk with ⟨m, hmem, hm⟩ | hright
      · left
        exact ⟨m, hmem, hmark, hm⟩
      · right
        exact hright
    · left
      exact hm'
  | @crash id _ _ hm =>
    intro s hs
    by_cases hji : i = id
    · simp only [hji, Function.update_self] at hs
      cases hs
    · exact h s ((Function.update_of_ne hji _ _).symm.trans hs)
  | lose hm =>
    intro s hs k hk
    apply (h s hs k hk).imp_right
    rintro ⟨m', hm', hmark, hbottom⟩
    refine ⟨m', ?_, hmark, hbottom⟩
    apply (hrest hm hm').resolve_left
    rintro rfl
    cases hmark

theorem Flowing.run (h : Flowing M t) (hs : ReflTransGen Step t t') :
  Flowing M t'
  := by
  induction hs with
  | refl => exact h
  | tail _ hstep ih => exact ih.step hstep

theorem Owed.run (h : Owed M i t) (hflow : Flowing M t) (hs : ReflTransGen Step t t') :
  Owed M i t'
  := by
  induction hs with
  | refl => exact h
  | tail hrun hstep ih => exact ih.step (hflow.run hrun) hstep

/-- A stable ring with nothing in flight. -/
def rest (o : Overlay) : Traffic where
  peer i := (o.node i).map fun s => { node := s, joined := true }
  msgs := []

theorem flowing_rest {o : Overlay} (h : o.Stable) :
  Flowing o.members (rest o)
  := by
  constructor
  · intro j peer hj
    obtain ⟨s, hs, rfl⟩ := Option.map_eq_some_iff.mp hj
    exact ⟨⟨s, hs⟩, h.settled hs⟩
  · intro m hm
    cases hm

/-- A stable ring on which rounds of finger lookups and other lookups have been going on in
any way. The node `i` starts a round, and again anything may happen. When nothing of that
round is in flight any more, and the node runs, every finger of it is the first node of the ring
at or clockwise after its point, or null when that is the node itself. -/
theorem fingers_after_round {o : Overlay} (ho : o.Stable) {t₁ t₂ : Traffic} {s s' : NodeSelf}
    (hbefore : ReflTransGen Step (rest o) t₁)
    (hi : t₁.peer i = some { node := s, joined := true })
    (hafter : ReflTransGen Step (t₁.act i [] (nodeFixFingers (idle s)) true) t₂)
    (hdone : ∀ m ∈ t₂.msgs, m.2 = false)
    (hruns : t₂.peer i = some { node := s', joined := true }) {k : Fin idBits} (hk : k ≠ 0) :
  ∃ m ∈ o.members,
    (∀ x ∈ o.members, (m - (i + (2 ^ (k.val - 1)).toUInt32)).toNat
      ≤ (x - (i + (2 ^ (k.val - 1)).toUInt32)).toNat)
    ∧ if m = i then s'.fingerTable k = nullNode else (s'.fingerTable k).id = m
  := by
  have hflow₁ : Flowing o.members t₁ := (flowing_rest ho).run hbefore
  obtain ⟨hmem, hsettled⟩ := hflow₁.peer hi
  have hfixing := fixFingers_fixing hsettled
  have hroute := hfixing.route_spec hmem
  have hflow : Flowing o.members (t₁.act i [] (nodeFixFingers (idle s)) true) :=
    hflow₁.act hmem hfixing.settled (fun m hm => hm) hroute.1
  have howed : Owed o.members i (t₁.act i [] (nodeFixFingers (idle s)) true) := by
    intro s₁ hs₁ k hk
    simp only [Traffic.act, Function.update_self, Option.some.injEq] at hs₁
    cases hs₁
    apply (hfixing.done k (Fin.val_ne_zero_iff.mp hk) k.isLt).imp_right
    rintro ⟨dest, hdest⟩
    obtain ⟨m, hm, hbottom⟩ := hroute.2 k dest hdest
    exact ⟨(m, true), List.mem_append_right _ (List.mem_map.mpr ⟨m, hm, rfl⟩), rfl, hbottom⟩
  have hk' : k.val ≠ 0 := Fin.val_ne_zero_iff.mpr hk
  rcases howed.run hflow hafter s' hruns k hk' with ⟨m, hm, hentry⟩ | ⟨m, hm, hmark, -⟩
  · exact ⟨m, hm.mem, hm.le, hentry⟩
  · rw [hdone m hm] at hmark
    cases hmark

/-! ### A run -/

/-- The message at the position `n` arrives, if it is one that a process waits for. -/
def deliver (t : Traffic) (n : ℕ) : Traffic :=
  match t.msgs[n]? with
  | some (.succRequest dest id frames, mark) =>
    match t.peer dest with
    | some ⟨s, true⟩ =>
      if dest = id then t
      else
        { t with msgs := t.msgs.take n ++ t.msgs.drop (n + 1) }.act dest frames
          (nodeFindSuccessor (idle s) id relay).2 mark
    | _ => t
  | some (.succReply node hops (f :: frames), mark) =>
    match t.peer f.owner with
    | some ⟨s, true⟩ =>
      { t with msgs := t.msgs.take n ++ t.msgs.drop (n + 1) }.act f.owner frames
        (nodeFound (idle s) { cb := f.cb, node := node, hops := hops }) mark
    | _ => t
  | _ => t

theorem deliver_run (t : Traffic) (n : ℕ) :
  ReflTransGen Step t (t.deliver n)
  := by
  have hsplit : ∀ {m : Msg × Bool}, t.msgs[n]? = some m →
      t.msgs = t.msgs.take n ++ m :: t.msgs.drop (n + 1) := by
    intro m hm
    obtain ⟨hn, rfl⟩ := List.getElem?_eq_some_iff.mp hm
    rw [List.cons_getElem_drop_succ, List.take_append_drop]
  rw [deliver]
  split
  next dest id frames mark hm =>
    split
    next s hd =>
      split_ifs with hne
      · exact .refl
      · exact .single (.succRequest (hsplit hm) hd hne)
    next => exact .refl
  next node hops f frames mark hm =>
    split
    next s hd => exact .single (.succReply (hsplit hm) hd)
    next => exact .refl
  next => exact .refl

/-- Messages arrive one after another. -/
theorem foldl_deliver_run (t : Traffic) (ns : List ℕ) :
  ReflTransGen Step t (ns.foldl deliver t)
  := by
  induction ns generalizing t with
  | nil => exact .refl
  | cons n ns ih => exact (t.deliver_run n).trans (ih _)

/-- Three nodes far apart, which know their successors and no fingers. -/
def farApart : Overlay :=
  .ofList [Overlay.knowing 10 400000010, Overlay.knowing 400000010 800000010,
    Overlay.knowing 800000010 10]

theorem stable_farApart :
  farApart.Stable
  := by
  apply Overlay.stable_ofList
  intro s hs
  simp only [List.mem_cons, List.not_mem_nil, or_false] at hs
  rcases hs with rfl | rfl | rfl
  · exact ⟨by decide, by decide, by decide, by decide⟩
  · exact ⟨by decide, by decide, by decide, by decide⟩
  · exact ⟨by decide, by decide, by decide, by decide⟩

/-- The node `10` has started a round, in which it asks the node `400000010` for two fingers. The
lookup for the last one has been forwarded to the node `800000010`, and the other one has been
answered. -/
def halfway : Traffic :=
  [1, 0].foldl deliver
    ((rest farApart).act 10 [] (nodeFixFingers (idle (Overlay.knowing 10 400000010))) false)

/-- The node `10` then. -/
def tenHalfway : NodeSelf :=
  ((halfway.peer 10).map Peer.node).getD .blank

/-- The node `10` has started another round, with two requests in flight and a reply of the
round before. The last lookup is forwarded, the other one is answered before it, and the reply
of the round before comes after that answer. -/
def roundOver : Traffic :=
  [3, 2, 3, 1, 1, 1, 1].foldl deliver
    (halfway.act 10 [] (nodeFixFingers (idle tenHalfway)) true)

/-- When that round is over, the fingers of the node `10` are right. -/
theorem fingers_after_round_farApart :
  ∃ s', roundOver.peer 10 = some { node := s', joined := true } ∧ ∀ k : Fin idBits, k ≠ 0 →
    ∃ m ∈ farApart.members,
      (∀ x ∈ farApart.members, (m - (10 + (2 ^ (k.val - 1)).toUInt32)).toNat
        ≤ (x - (10 + (2 ^ (k.val - 1)).toUInt32)).toNat)
      ∧ if m = 10 then s'.fingerTable k = nullNode else (s'.fingerTable k).id = m
  := by
  have hbefore : ReflTransGen Step (rest farApart) halfway :=
    .head (.fixFingers rfl) (foldl_deliver_run _ _)
  have hjoined : (halfway.peer 10).map Peer.joined = some true := by decide +kernel
  have hjoined' : (roundOver.peer 10).map Peer.joined = some true := by decide +kernel
  have hdone : ∀ m ∈ roundOver.msgs, m.2 = false := by decide +kernel
  obtain ⟨⟨s, b⟩, hs, hb⟩ := Option.map_eq_some_iff.mp hjoined
  obtain ⟨⟨s', b'⟩, hs', hb'⟩ := Option.map_eq_some_iff.mp hjoined'
  dsimp only at hb hb'
  subst hb hb'
  have hten : halfway.peer 10 = some { node := tenHalfway, joined := true } := by
    simp only [tenHalfway, hs, Option.map_some, Option.getD_some]
  have hafter : ReflTransGen Step (halfway.act 10 [] (nodeFixFingers (idle tenHalfway)) true)
      roundOver := foldl_deliver_run _ _
  use s', hs'
  intro k hk
  apply fingers_after_round stable_farApart hbefore hten hafter hdone hs' hk

end Traffic
