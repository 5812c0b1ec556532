import LibDht.Loopback.Replies
import LibDht.Net.Exhaustion
import LibDht.Run.Simulation

/-!
# Processes on connections run as the network of messages does

Whatever one step of the machine does, the network does in none, in one or in several. So
beside every run of the machine there is one of the network, with the nodes in the same
states, and what holds of the nodes in every network holds of the processes.
-/

open Function Relation

namespace Machine

/-! ### Processes that start -/

section

variable {port : HashType → UInt16} {c : HashType} {m m' : Machine} {l l' : Located} {W : Wires}
  {i : HashType} {p q : NodeProcess} {e : Bool} {mem : NodeSelf} {outcome : ℕ → Outcome} {arg : ℕ}

/-- A process that has just started has no connections. -/
theorem shows_start :
  Shows (start port mem i outcome).net (fun _ => none)
  := by
  constructor
  · apply numbered_boot
  · intro k _
    rfl
  · intro k b hb
    cases hb
  · intro s x hs
    cases hs

/-- A node is asked at its address and port; its identifier is not sent. -/
theorem findSuccessorRemote_congr {n n' : NodeInfo} (h : (n.IP, n.port) = (n'.IP, n'.port))
    (net : NodeNet) (id : HashType) (cb : FoundCb) :
  net.findSuccessorRemote n id cb = net.findSuccessorRemote n' id cb
  := by
  obtain ⟨_, IP, port⟩ := n
  obtain ⟨_, IP', port'⟩ := n'
  obtain ⟨rfl, rfl⟩ : IP = IP' ∧ port = port' := Prod.mk.inj h
  rfl

/-- A process starts and joins. -/
theorem Mirrored.joins (h : Mirrored port m l W) {contact : HashType} {node : NodeInfo}
    (hi : m.host i = none) (hport : ∀ j, m.host j ≠ none → port j ≠ port i)
    (hc : m.host contact = some { process := q, entered := true })
    (hnode : (node.IP, node.port) = (0x7F000001, port contact))
    (hf : ∀ k, mem.fingerTable k = nullNode) :
  let p := (start port mem i outcome).occur (.networkJoin node arg)
  p.net.crashed = false ∧ ∃ l' W', Moves port l l' ∧ Mirrored port (m.run i false p) l' W'
  := by
  let dest := (Places.onLoopback port).entry contact
  have hoccur : (start port mem i outcome).occur (.networkJoin node arg)
      = nodeNetworkJoin (start port mem i outcome) dest arg := by
    rw [Process.occur_of_running rfl _]
    change nodeNetworkJoin _ node arg = _
    have hsame : (node.IP, node.port) = (dest.IP, dest.port) := hnode
    unfold nodeNetworkJoin nodeFindSuccessorRemote
    simp only [Remote.findSuccessorRemote, findSuccessorRemote_congr hsame]
  dsimp only
  rw [hoccur]
  have hstep : Moves port l (l.act i false [] l.net.msgs
      (nodeNetworkJoin (idle (nodeCreate mem i (port i))) dest arg)) := by
    apply Located.Step.join mem contact arg
    · rw [h.peer, hi, Option.map_none]
    · exact ⟨_, h.peer_of_host hc⟩
    · intro k
      exact Or.inl (hf k)
  have hnext : m.next i = (start port mem i outcome).net.nextSerial := by
    rw [next, hi]
    rfl
  have hrow : W.row i = fun _ => none := by
    funext s
    cases hx : W.row i s with
    | none => rfl
    | some x =>
      have hlt := h.wired.lt (i, s) x hx
      rw [next, hi] at hlt
      exact absurd hlt (Nat.not_lt_zero s)
  have hshows : Shows (start port mem i outcome).net (W.row i) := by
    rw [hrow]
    apply shows_start
  have hlike := nodeNetworkJoin_like (selfOnly_nodeNet.mirrors _ _)
    (like_idle (start port mem i outcome)) dest arg
  have hnode := hlike.node
  have hnet : (nodeNetworkJoin (start port mem i outcome) dest arg).net
      = sendAll (start port mem i outcome).node (start port mem i outcome).net
        [.findSuccessor dest i (.networkJoinSuccFound arg)] := hlike.net
  have hcrashed : (nodeNetworkJoin (start port mem i outcome) dest arg).net.crashed = false :=
    NodeNet.findSuccessorRemote_crashed (start port mem i outcome).net dest i _
  have hsent : ∀ a ∈ [Sent.findSuccessor dest i (.networkJoinSuccFound arg)], Sendable port a := by
    intro a ha
    obtain rfl := List.mem_singleton.mp ha
    refine ⟨?_, dest, rfl, Or.inr rfl⟩
    rintro cb hcb d rfl
    cases hcb
  obtain ⟨W', hwired, hsends⟩ :=
    h.wired.sentAll hnext hshows (start port mem i outcome).node hsent
  rw [← hnet] at hwired hsends
  refine ⟨hcrashed, _, W', hstep, h.run m.links ?_ ?_ hsends.shows hsends.other hwired ?_⟩
  · intro j hj heq
    exact absurd heq (hport j hj)
  · rw [← hnode]
    rfl
  · rw [hsends.msgs, ← h.msgs]
    rfl

/-- Without connections there are no links, and no messages in flight. -/
theorem wired_none (next : HashType → ℕ) :
  Wired port next [] { conn := fun _ => none, frames := fun _ => [], msgs := [] }
  := by
  have hnone : ∀ e data,
      ¬ Wires.Awaits { conn := fun _ => none, frames := fun _ => [], msgs := [] } e data := by
    rintro e data ⟨u, sin, hu, -⟩
    cases hu
  constructor
  · intro e x hx
    cases hx
  · apply List.forall_mem_nil
  · apply List.forall_mem_nil
  · apply List.forall_mem_nil
  · apply List.forall_mem_nil
  · apply List.forall_mem_nil
  · apply List.forall_mem_nil
  · apply List.forall_mem_nil
  · intro e data hawaits
    cases hnone e data hawaits
  · intro e data d hawaits
    cases hnone e data hawaits
  · intro i s s' v j j' data data' hawaits
    cases hnone (i, s) data hawaits
  · intro e u sin hu
    cases hu
  · apply List.forall_mem_nil

/-- The first process creates the network. -/
theorem refines_created (port : HashType → UInt16) (mem : NodeSelf) (c : HashType)
    (outcome : ℕ → Outcome) (arg : ℕ) :
  Refines port (created port mem c outcome arg)
    { net := Net.created mem c (port c) arg, handed := [], dialled := [] }
  := by
  have hoccur : (start port mem c outcome).occur (.networkCreate arg)
      = (nodeNetworkCreate (start port mem c outcome) arg).2 := Process.occur_of_running rfl _
  have hlike := nodeNetworkCreate_like (like_idle (start port mem c outcome)) arg
  have hnet : (nodeNetworkCreate (start port mem c outcome) arg).2.net
      = (start port mem c outcome).net := hlike.net
  have hhost : ∀ i host, (created port mem c outcome arg).host i = some host →
      i = c ∧ host = { process := (nodeNetworkCreate (start port mem c outcome) arg).2
                       entered := true } := by
    intro i host hi
    rw [created, hoccur] at hi
    dsimp only at hi
    by_cases hic : i = c
    · subst hic
      rw [update_self] at hi
      exact ⟨rfl, (Option.some.inj hi).symm⟩
    · rw [update_of_ne hic] at hi
      cases hi
  constructor
  · intro i host hi
    obtain ⟨-, rfl⟩ := hhost i host hi
    dsimp only
    rw [hnet]
    rfl
  · let W : Wires := { conn := fun _ => none, frames := fun _ => [], msgs := [] }
    refine ⟨W, ?_, ?_, ?_, ?_, rfl⟩
    · intro i
      by_cases hic : i = c
      · subst hic
        have hnode := hlike.node
        rw [Net.created, created]
        dsimp only
        rw [update_self, update_self, Option.map_some, hoccur, ← hnode]
        rfl
      · rw [Net.created, created]
        dsimp only
        rw [update_of_ne hic, update_of_ne hic, Option.map_none]
    · intro i j hi hj _
      obtain ⟨host, hi⟩ := Option.ne_none_iff_exists'.mp hi
      obtain ⟨host', hj⟩ := Option.ne_none_iff_exists'.mp hj
      rw [(hhost i host hi).1, (hhost j host' hj).1]
    · intro i host hi
      obtain ⟨-, rfl⟩ := hhost i host hi
      dsimp only
      rw [hnet]
      apply shows_start
    · apply wired_none

end

/-! ### Every run -/

section

variable {port : HashType → UInt16} {c : HashType} {m m' : Machine} {l l' : Located} {W : Wires}
  {i : HashType} {q : NodeProcess} {e : Bool} {links : List Link}

/-- A process has run, and it has not crashed. -/
theorem Refines.of_mirrored (h : Refines port m l) (hq : q.net.crashed = false)
    (hW : Mirrored port { m.run i e q with links := links } l' W) :
  Refines port { m.run i e q with links := links } l'
  := by
  refine ⟨?_, W, hW⟩
  intro j host hj
  by_cases hji : j = i
  · subst hji
    obtain rfl := Option.some.inj (hj.symm.trans run_host)
    apply hq
  · apply h.running j host
    rw [← hj]
    exact (run_host_of_ne hji).symm

/-- What one step of the machine does, the network does in none, one or several. -/
theorem Refines.step (h : Refines port m l) (hl : Runs port c l) (hs : Step port m m') :
  ∃ l', ReflTransGen (Moves port) l l' ∧ Refines port m' l'
  := by
  obtain ⟨W, hW⟩ := h.mirrored
  cases hs with
  | operation o ho hp hrun =>
    obtain ⟨l', W', hsteps, hW'⟩ := hW.own hl hp (h.running _ _ hp) ho
    exact ⟨l', hsteps, h.of_mirrored hrun hW'⟩
  | join mem outcome contact node arg hi hport hc hnode hf =>
    obtain ⟨hrun, l', W', hstep, hW'⟩ := hW.joins hi hport hc hnode hf
    exact ⟨l', .single hstep, h.of_mirrored hrun hW'⟩
  | accept hp hb hto hnew hq =>
    obtain ⟨hrun, W', hW'⟩ := hW.accepts hp hb hto hnew hq (h.running _ _ hq)
    exact ⟨l, .refl, h.of_mirrored hrun hW'⟩
  | request hlink hasked hp hb hq hv hb' hrun =>
    obtain ⟨l', W', hsteps, hW'⟩ := hW.requestArrives hl hlink hasked hp hb hq hv hb' hrun
    exact ⟨l', hsteps, h.of_mirrored hrun hW'⟩
  | reply hlink hasked hp hb hq hv hb' hout hrun =>
    obtain ⟨l', W', hsteps, hW'⟩ := hW.replyArrives hl hlink hp hb hq hv hb' hout
    exact ⟨l', hsteps, h.of_mirrored hrun hW'⟩
  | clientClosed hlink hp hclosed hq hv hb' =>
    obtain ⟨hrun, W', hW'⟩ := hW.clientCloses hlink hp hclosed hq hv hb'
    exact ⟨l, .refl, h.of_mirrored hrun hW'⟩
  | serverClosed hlink hp hb hq hv hclosed =>
    obtain ⟨hrun, W', hW'⟩ := hW.serverCloses hlink hp hb hq hv hclosed
    exact ⟨l, .refl, h.of_mirrored hrun hW'⟩

/-- The machine runs as the network of messages does. -/
theorem simulates :
  Simulates (Step port) (Moves port) (Runs port c) (Refines port)
  where
    keeps hl hs := hl.step hs
    steps hl h hs := h.step hl hs

/-- A run leads to every reachable machine. -/
theorem Reachable.exists_run (h : Reachable port c m) :
  ∃ mem outcome arg, (∀ k, mem.fingerTable k = nullNode)
    ∧ ReflTransGen (Step port) (Machine.created port mem c outcome arg) m
  := by
  induction h with
  | created mem outcome arg hf => exact ⟨mem, outcome, arg, hf, .refl⟩
  | step _ hs ih =>
    obtain ⟨mem, outcome, arg, hf, hrun⟩ := ih
    exact ⟨mem, outcome, arg, hf, hrun.tail hs⟩

/-- A network of messages runs beside the machine, from where the same node has created it. -/
theorem Reachable.run_beside (h : Reachable port c m) :
  ∃ mem arg l, ReflTransGen (Moves port)
      { net := Net.created mem c (port c) arg, handed := [], dialled := [] } l
    ∧ Runs port c l ∧ Refines port m l
  := by
  obtain ⟨mem, outcome, arg, hf, hrun⟩ := h.exists_run
  obtain ⟨l, hmoves⟩ :=
    simulates.run (Located.Reachable.created mem arg hf) (refines_created port mem c outcome arg) hrun
  exact ⟨mem, arg, l, hmoves⟩

/-- Whatever processes on one machine do to each other in a run, over connections and in bytes,
a network of messages does in a run of its own: the nodes are in the same states, and what is
on the wires are the messages in flight. -/
theorem Reachable.refines (h : Reachable port c m) :
  ∃ l, Runs port c l ∧ Refines port m l
  := by
  obtain ⟨mem, arg, l, -, hl, hrefines⟩ := h.run_beside
  exact ⟨l, hl, hrefines⟩

end

/-! ### The first lookup that is forwarded -/

section FirstRelay

/-- The ports that nodes listen at. -/
def firstPort (i : HashType) : UInt16 :=
  4000 + i.toUInt16

/-- The process `i` calls `node_network_join` with the address of `contact`, and no identifier
of it. -/
def joining (i contact : HashType) : NodeProcess :=
  (start firstPort .blank i fun _ => .fine).occur
    (.networkJoin { IP := 0x7F000001, id := 0, port := firstPort contact } 0)

/-- The process `5` has created a network, -/
def five : NodeProcess :=
  (start firstPort .blank 5 fun _ => .fine).occur (.networkCreate 0)

/-- it has accepted the connection of `9`, -/
def five₁ : NodeProcess :=
  five.occur (.accept 0x7F000001)

/-- it has answered the lookup of `9`, -/
def five₂ : NodeProcess :=
  five₁.occur (.data 0 (Request.findSuccessor 9).wire)

/-- and `9` has read the answer. -/
def nine : NodeProcess :=
  (joining 9 5).occur (.data 0 (successorReply ((Places.onLoopback firstPort).entry 5) 1))

/-- The process `7` joins with `9`, which accepts its connection, -/
def nine₁ : NodeProcess :=
  nine.occur (.accept 0x7F000001)

/-- and asks `5` in its place, -/
def nine₂ : NodeProcess :=
  nine₁.occur (.data 0 (Request.findSuccessor 7).wire)

/-- which accepts another connection of `9`, -/
def five₃ : NodeProcess :=
  five₂.occur (.accept 0x7F000001)

/-- and answers. -/
def five₄ : NodeProcess :=
  five₃.occur (.data 1 (Request.findSuccessor 7).wire)

/-- The links of a machine on which `9` has joined. -/
def firstLink : Link :=
  { client := 9, made := 0, server := 5, taken := some 0, asked := true }

/-- The machine when `9` has joined, -/
def twoEntered : Machine :=
  { ((((created firstPort .blank 5 (fun _ => .fine) 0).run 9 false (joining 9 5)).run 5 true
      five₁).run 5 true five₂).run 9 true nine with
    links := [firstLink] }

/-- and when `5` has answered `9`, which has asked for `7`. -/
def relaying : Machine :=
  { ((((twoEntered.run 7 false (joining 7 9)).run 9 true nine₁).run 9 true nine₂).run 5 true
      five₃).run 5 true five₄ with
    links := [firstLink, { client := 7, made := 0, server := 9, taken := some 1, asked := true },
      { client := 9, made := 2, server := 5, taken := some 1, asked := true }] }

/-- The connection in a slot. -/
theorem connected_of {p : NodeProcess} {k : Fin maxOpenConnections} {s : ℕ} {out : List UInt8}
    (hrun : p.net.crashed = false)
    (h : (p.net.connections k).bev.map (fun b => (b.serial, b.enabled, b.output))
      = some (s, true, out)) :
  ∃ b, Connected p k s b ∧ b.output = out
  := by
  obtain ⟨b, hb, heq⟩ := Option.map_eq_some_iff.mp h
  obtain ⟨hserial, henabled, hout⟩ : b.serial = s ∧ b.enabled = true ∧ b.output = out := by
    simpa using heq
  exact ⟨b, ⟨hrun, hb, hserial, henabled⟩, hout⟩

theorem reachable_twoEntered :
  Reachable firstPort 5 twoEntered
  := by
  have hblank : ∀ k, NodeSelf.blank.fingerTable k = nullNode := fun _ => rfl
  have hcreated : Reachable firstPort 5 (Machine.created firstPort .blank 5 (fun _ => .fine) 0) :=
    .created .blank (fun _ => .fine) 0 hblank
  have hother : ∀ j, (Machine.created firstPort .blank 5 (fun _ => .fine) 0).host j ≠ none →
      j = 5 := by
    intro j hj
    by_contra hne
    rw [Machine.created] at hj
    dsimp only at hj
    rw [update_of_ne hne] at hj
    exact hj rfl
  -- `9` calls `node_network_join`
  have hjoin : Reachable firstPort 5
      ((Machine.created firstPort .blank 5 (fun _ => .fine) 0).run 9 false (joining 9 5)) := by
    apply hcreated.step
    apply Step.join (q := five) .blank (fun _ => .fine) 5 _ 0 rfl _ rfl rfl hblank
    intro j hj
    rw [hother j hj]
    decide
  -- its connection reaches `5`,
  obtain ⟨b, hb, hout⟩ : ∃ b, Connected (joining 9 5) 0 0 b
      ∧ b.output = (Request.findSuccessor 9).wire :=
    connected_of (by decide +kernel) (by decide +kernel)
  have haccept := hjoin.step (.accept (i := 9) (d := 5) (p := joining 9 5) (q := five) run_host hb
    (by decide +kernel) (fun l hl => absurd hl List.not_mem_nil) rfl)
  have hseen : seen 9 0 5 five (five.occur (.accept 0x7F000001))
      = { firstLink with asked := false } := by decide +kernel
  rw [hseen] at haccept
  -- the request does,
  obtain ⟨b', hb', hout'⟩ : ∃ b, Connected five₁ 0 0 b ∧ b.output = [] :=
    connected_of (by decide +kernel) (by decide +kernel)
  have hrequest := haccept.step (.request (l := { firstLink with asked := false })
    (p := joining 9 5) (q := five₁) List.mem_cons_self rfl rfl hb rfl rfl hb' (by
      rw [hout]
      decide +kernel))
  rw [hout] at hrequest
  -- and the reply reaches `9`
  obtain ⟨b₁, hb₁, hout₁⟩ : ∃ b, Connected five₂ 0 0 b
      ∧ b.output = successorReply ((Places.onLoopback firstPort).entry 5) 1 :=
    connected_of (by decide +kernel) (by decide +kernel)
  have hreply := hrequest.step (.reply (l := firstLink) (p := joining 9 5) (q := five₂)
    List.mem_cons_self rfl rfl hb rfl rfl hb₁ (by rw [hout₁]; exact List.cons_ne_nil _ _) (by
      rw [hout₁]
      decide +kernel))
  rw [hout₁] at hreply
  have hjoins : joinsOn (joining 9 5) 0 = true := by decide +kernel
  rw [hjoins] at hreply
  exact hreply

/-- The processes that run when `9` has joined. -/
theorem twoEntered_host {j : HashType} (hj : twoEntered.host j ≠ none) :
  j = 9 ∨ j = 5
  := by
  by_contra hne
  obtain ⟨h9, h5⟩ := not_or.mp hne
  apply hj
  change update (update (update (update (update (fun _ => none) 5 _) 9 _) 5 _) 5 _) 9 _ j = none
  rw [update_of_ne h9, update_of_ne h5, update_of_ne h5, update_of_ne h9, update_of_ne h5]

theorem reachable_relaying :
  Reachable firstPort 5 relaying
  := by
  -- `7` calls `node_network_join`
  have hjoin : Reachable firstPort 5 (twoEntered.run 7 false (joining 7 9)) := by
    apply reachable_twoEntered.step
    apply Step.join (q := nine) .blank (fun _ => .fine) 9 _ 0 rfl _ rfl rfl (fun _ => rfl)
    intro j hj
    rcases twoEntered_host hj with rfl | rfl <;> decide
  -- its connection reaches `9`, and the request does,
  obtain ⟨b, hb, hout⟩ : ∃ b, Connected (joining 7 9) 0 0 b
      ∧ b.output = (Request.findSuccessor 7).wire :=
    connected_of (by decide +kernel) (by decide +kernel)
  have haccept := hjoin.step (.accept (i := 7) (d := 9) (p := joining 7 9) (q := nine) run_host hb
    (by decide +kernel) (by decide) rfl)
  have hseen : seen 7 0 9 nine (nine.occur (.accept 0x7F000001))
      = { client := 7, made := 0, server := 9, taken := some 1, asked := false } := by
    decide +kernel
  rw [hseen] at haccept
  obtain ⟨b', hb', -⟩ : ∃ b, Connected nine₁ 0 1 b ∧ b.output = [] :=
    connected_of (by decide +kernel) (by decide +kernel)
  have hrequest := haccept.step (.request
    (l := { client := 7, made := 0, server := 9, taken := some 1, asked := false })
    (p := joining 7 9) (q := nine₁) (List.mem_append_right _ List.mem_cons_self) rfl rfl hb rfl rfl
    hb' (by
      rw [hout]
      decide +kernel))
  rw [hout] at hrequest
  -- and the one that `9` makes for it reaches `5`
  obtain ⟨b₁, hb₁, hout₁⟩ : ∃ b, Connected nine₂ 1 2 b
      ∧ b.output = (Request.findSuccessor 7).wire :=
    connected_of (by decide +kernel) (by decide +kernel)
  have haccept₁ := hrequest.step (.accept (i := 9) (d := 5) (p := nine₂) (q := five₂) rfl hb₁
    (by decide +kernel) (by decide) rfl)
  have hseen₁ : seen 9 2 5 five₂ (five₂.occur (.accept 0x7F000001))
      = { client := 9, made := 2, server := 5, taken := some 1, asked := false } := by
    decide +kernel
  rw [hseen₁] at haccept₁
  obtain ⟨b₂, hb₂, -⟩ : ∃ b, Connected five₃ 1 1 b ∧ b.output = [] :=
    connected_of (by decide +kernel) (by decide +kernel)
  have hrequest₁ := haccept₁.step (.request
    (l := { client := 9, made := 2, server := 5, taken := some 1, asked := false })
    (p := nine₂) (q := five₃) (List.mem_append_right _ List.mem_cons_self) rfl rfl hb₁ rfl rfl
    hb₂ (by
      rw [hout₁]
      decide +kernel))
  rw [hout₁] at hrequest₁
  exact hrequest₁

theorem refines_relaying :
  ∃ l, Runs firstPort 5 l ∧ Refines firstPort relaying l
  := reachable_relaying.refines

end FirstRelay

end Machine
