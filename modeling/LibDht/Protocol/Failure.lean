import LibDht.Node.Probes
import LibDht.Protocol.Convergence

/-!
# When nodes fail

Some nodes of a network fail, all at one time. Their processes are gone, and what is sent to
them gets lost. The others go on, and they probe their successors and their predecessors: a
probe of a node that has failed fails, and one of a node that runs succeeds, or ends without a
result when its connection is closed by the other side.

Before the failure the successor array of every node held the nodes that follow it. So a node
that goes on finds the next one that does in some entry, after entries of failed nodes only.
This stays so, whatever arrives late from the time before, and although nodes are told of
failed ones by others that do not know of the failure yet.
-/

open Circle Function

/-! ### A network some of whose nodes have failed -/

/-- A probe in flight. -/
structure Probe where
  owner : HashType
  dest : NodeInfo
  cb : CheckCb
  deriving DecidableEq, Repr

/-- The probing that runs periodically at a node in a network. -/
inductive Check where
  | succs
  | pred

/-- What is probed. -/
def Check.fire {ν : Type} [Remote ν] (t : Check) (p : Process ν) : Process ν :=
  match t with
  | .succs => nodeCheckSuccessors p
  | .pred => nodeCheckPredecessor p

/-- What is left of a network, and the probes in flight. -/
structure Remains where
  net : Net
  probes : List Probe

/-- The nodes that are not `running` fail, and the probes that they have sent are gone. -/
def Net.fail (net : Net) (running : HashType → Bool) (probes : List Probe) : Remains where
  net := { net with peer := fun i => if running i then net.peer i else none }
  probes := probes.filter fun p => running p.owner

namespace Remains

/-- The probes that the node `i` has sent. -/
def probed (i : HashType) (p : Process Outbox) : List Probe :=
  (probesOf p.net.sent).map fun probe => { owner := i, dest := probe.1, cb := probe.2 }

/-- One step of what is left. Nobody joins any more. -/
inductive Step : Remains → Remains → Prop where
  | net {w : Remains} {net' : Net} (hs : Net.Step w.net net')
      (hsame : ∀ i, w.net.peer i = none → net'.peer i = none) : Step w { w with net := net' }
  | check {w : Remains} {i : HashType} {s : NodeSelf} (t : Check)
      (hi : w.net.peer i = some { node := s, joined := true }) :
      Step w { net := w.net.act i true [] (t.fire (idle s))
               probes := w.probes ++ probed i (t.fire (idle s)) }
  | outcome {w : Remains} {p : Probe} {s : NodeSelf} {b : Bool} {before after : List Probe}
      (hp : w.probes = before ++ p :: after)
      (hi : w.net.peer p.owner = some { node := s, joined := b }) :
      Step w { net := w.net.act p.owner b []
                 (nodeCheckResult (idle s) p.cb (w.net.peer p.dest.id).isSome)
               probes := before ++ after }
  | ended {w : Remains} {p : Probe} {before after : List Probe}
      (hp : w.probes = before ++ p :: after) : Step w { w with probes := before ++ after }

end Remains

/-! ### The nodes that go on -/

/-- The nodes `running` of `members` go on. The next one after each is `next`, and it is in the
entry `slot` of its successor array, which is not the last one. -/
structure Survivors where
  members : Set HashType
  running : Set HashType
  next : HashType → HashType
  slot : HashType → Fin numOfSuccs
  subset : running ⊆ members
  next_running : ∀ {i}, i ∈ running → Next running i (next i)
  next_ne : ∀ {i}, i ∈ running → next i ≠ i
  slot_lt : ∀ {i}, i ∈ running → (slot i).val + 1 < numOfSuccs
  slot_zero : ∀ {i}, i ∈ running → slot i = 0 → Next members i (next i)

namespace Survivors

variable (V : Survivors)

/-- A failed node between `i` and the next one that runs. -/
structure Lost (i x : HashType) : Prop where
  mem : x ∈ V.members
  not_running : x ∉ V.running
  between : clockwise i x < clockwise i (V.next i)

/-- What the entry `k` of the node `i` may hold: the next node that runs, or a failed one before
its place. -/
def Fits (i : HashType) (k : Fin numOfSuccs) (x : HashType) : Prop :=
  (k = V.slot i ∧ x = V.next i) ∨ (k < V.slot i ∧ V.Lost i x)

/-- The node `i` finds the next one that runs in its successor array, after failed ones only.
Its predecessor has failed, or comes before it. -/
structure KnowsNext (i : HashType) (s : NodeSelf) : Prop where
  self_id : s.self.id = i
  self_IP : s.self.IP ≠ 0
  alive : s.Alive (V.slot i)
  fits : ∀ k ≤ V.slot i, s.Alive k → V.Fits i k (s.successor k).id
  pred : s.hasPred = true → s.predecessor.IP ≠ 0 ∧ s.predecessor.id ∈ V.members
    ∧ (s.predecessor.id ∈ V.running → V.next s.predecessor.id = i)

/-- The stack of a lookup for one of the entries in which the node `i` finds the next one. -/
structure Early (frames : List Frame) (i : HashType) (k : Fin numOfSuccs) : Prop where
  running : i ∈ V.running
  le : k ≤ V.slot i
  bottom : frames.getLast? = some { owner := i, cb := .updateSuccsFound k.val }

/-- The stack of a lookup: nobody that runs joins with it. -/
structure Settled (frames : List Frame) : Prop where
  stack : ∃ id, Stack Set.univ id frames
  joiner : ∀ x, joinerOf frames = some x → x ∉ V.running

/-- A message in flight. The request for an early entry is sent to a failed node; a reply for
one is from before the failure. -/
def Allows : Msg → Prop
  | .succRequest dest _ frames =>
    V.Settled frames ∧ ∀ i k, V.Early frames i k → dest ∉ V.running
  | .succReply n _ frames =>
    n.IP ≠ 0 ∧ V.Settled frames ∧ ∀ i k, V.Early frames i k → V.Fits i k n.id
  | .predRequest dest f =>
    f.cb = .stabilizeSpFound
      ∧ (f.owner ∈ V.running → dest ∈ V.running → dest = V.next f.owner)
  | .predReply n _ f =>
    f.cb = .stabilizeSpFound ∧ (n = nullNode
      ∨ n.IP ≠ 0 ∧ n.id ∈ V.members ∧ (f.owner ∈ V.running → n.id ≠ V.next f.owner))
  | .notify dest id _ =>
    id ∈ V.members ∧ (dest ∈ V.running → id ∈ V.running → dest = V.next id)

/-- A probe in flight of the entry in which a node finds the next one is for that one. -/
def Aims (p : Probe) : Prop :=
  p.owner ∈ V.running
    ∧ (p.cb = .succResult (V.slot p.owner).val → p.dest.id = V.next p.owner)

/-- The nodes that go on know the next one. -/
structure Intact (w : Remains) : Prop where
  peer : ∀ {i peer}, w.net.peer i = some peer →
    i ∈ V.running ∧ peer.joined = true ∧ V.KnowsNext i peer.node
  running : ∀ {i}, i ∈ V.running → ∃ s, w.net.peer i = some { node := s, joined := true }
  msg : ∀ m ∈ w.net.msgs, V.Allows m
  probe : ∀ p ∈ w.probes, V.Aims p

variable {V}
variable {i x : HashType} {k : Fin numOfSuccs} {s s' : NodeSelf} {n : NodeInfo}
  {frames : List Frame}

/-! ### What a node knows -/

/-- The first successor of a node has failed, or is the next one that runs. -/
theorem KnowsNext.first (h : V.KnowsNext i s) :
  ∃ k ≤ V.slot i, nodeFirstAliveSucc s = k.val ∧ s.Alive k ∧ s.firstSucc = s.successor k
    ∧ V.Fits i k s.firstSucc.id
  := by
  rcases nodeFirstAliveSucc_cases s with ⟨-, hnone⟩ | ⟨k, hk, halive⟩
  · exact absurd h.alive (hnone _)
  · have hle : k ≤ V.slot i := by
      by_contra hlt
      exact (nodeFirstAliveSucc_eq_coe_iff.mp hk).2 _ (not_le.mp hlt) h.alive
    have hfirst : s.firstSucc = s.successor k := by
      rw [NodeSelf.firstSucc, hk, NodeSelf.successorAt_coe]
    exact ⟨k, hle, hk, halive, hfirst, hfirst ▸ h.fits k hle halive⟩

theorem Fits.eq_next_of_running (h : V.Fits i k x) (hx : x ∈ V.running) :
  x = V.next i
  := by
  rcases h with ⟨-, heq⟩ | ⟨-, hlost⟩
  · exact heq
  · exact absurd hx hlost.not_running

theorem Fits.le (h : V.Fits i k x) :
  clockwise i x ≤ clockwise i (V.next i)
  := by
  rcases h with ⟨-, rfl⟩ | ⟨-, hlost⟩
  · exact le_rfl
  · exact hlost.between.le

theorem Fits.ne (h : V.Fits i k x) (hi : i ∈ V.running) :
  x ≠ i
  := by
  rcases h with ⟨-, rfl⟩ | ⟨-, hlost⟩
  · exact V.next_ne hi
  · rintro rfl
    exact hlost.not_running hi

/-- A member between a node and the next one that runs has failed. -/
theorem lost_of_lt (hi : i ∈ V.running) (hx : x ∈ V.members) (hne : x ≠ i)
    (hlt : clockwise i x < clockwise i (V.next i)) :
  V.Lost i x
  := by
  refine ⟨hx, ?_, hlt⟩
  intro hrun
  have hle := ((V.next_running hi).le x hrun hne).2
  omega

/-- With the same successor array a node knows the next one as before. -/
theorem KnowsNext.congr (h : V.KnowsNext i s) (hself : s'.self = s.self)
    (hsucc : s'.successor = s.successor)
    (hpred : s'.hasPred = true → s'.predecessor.IP ≠ 0 ∧ s'.predecessor.id ∈ V.members
      ∧ (s'.predecessor.id ∈ V.running → V.next s'.predecessor.id = i)) :
  V.KnowsNext i s'
  := by
  refine ⟨?_, ?_, ?_, ?_, hpred⟩
  · rw [hself]
    apply h.self_id
  · rw [hself]
    apply h.self_IP
  · rw [NodeSelf.Alive, hsucc]
    apply h.alive
  · intro k hk halive
    rw [NodeSelf.Alive, hsucc] at halive
    rw [hsucc]
    exact h.fits k hk halive

/-- An entry is written. -/
theorem KnowsNext.write (h : V.KnowsNext i s) (hn : n.IP ≠ 0)
    (hfits : k ≤ V.slot i → V.Fits i k n.id) :
  V.KnowsNext i { s with successor := update s.successor k n }
  := by
  refine ⟨h.self_id, h.self_IP, ?_, ?_, h.pred⟩
  · rw [NodeSelf.Alive]
    dsimp only
    by_cases heq : V.slot i = k
    · rw [heq, update_self]
      exact hn
    · rw [update_of_ne heq]
      exact h.alive
  · intro j hj halive
    rw [NodeSelf.Alive] at halive
    dsimp only at halive ⊢
    by_cases heq : j = k
    · subst heq
      rw [update_self]
      exact hfits hj
    · rw [update_of_ne heq] at halive ⊢
      exact h.fits j hj halive

/-- A node adopts failed nodes only, and only when it finds the next one later. -/
theorem KnowsNext.fits_of_adopts (h : V.KnowsNext i s) (hi : i ∈ V.running)
    (hn : n.id ∈ V.members) (hne : n.id ≠ V.next i) (hadopts : Adopts s n) :
  0 < V.slot i ∧ V.Lost i n.id
  := by
  obtain ⟨k, hk, -, -, -, hfits⟩ := h.first
  obtain ⟨-, hwhere⟩ := adopts_iff.mp hadopts
  rw [h.self_id] at hwhere
  obtain ⟨hni, hle⟩ := hwhere.resolve_left (Ne.symm (hfits.ne hi))
  have hlt : clockwise i n.id < clockwise i (V.next i) := by
    apply lt_of_le_of_ne (hle.trans hfits.le)
    exact fun heq => hne (clockwise_injective i heq)
  refine ⟨?_, lost_of_lt hi hn hni hlt⟩
  apply Fin.pos_iff_ne_zero.mpr
  intro hzero
  -- nobody was between the node and its first successor
  have hle' := ((V.slot_zero hi hzero).le n.id hn hni).2
  omega

theorem KnowsNext.adopt (h : V.KnowsNext i s) (hi : i ∈ V.running)
    (hn : n = nullNode ∨ n.IP ≠ 0 ∧ n.id ∈ V.members ∧ n.id ≠ V.next i) :
  V.KnowsNext i (adopted s n)
  := by
  rw [adopted]
  split_ifs with hadopts
  · rcases hn with rfl | ⟨hIP, hmem, hne⟩
    · obtain ⟨hsome, -⟩ := adopts_iff.mp hadopts
      simp [nullNode] at hsome
    · apply h.write hIP
      intro _
      exact Or.inr (h.fits_of_adopts hi hmem hne hadopts)
  · exact h

/-- An entry is cleared, and it is another one than that of the next node. -/
theorem KnowsNext.clear (h : V.KnowsNext i s) {k : ℤ} (hk : k ≠ (V.slot i).val) :
  V.KnowsNext i (s.setSuccessor k nullNode)
  := by
  obtain ⟨hpred, hhas⟩ := s.setSuccessor_predecessor k nullNode
  refine ⟨?_, ?_, ?_, ?_, ?_⟩
  · rw [NodeSelf.setSuccessor_self]
    apply h.self_id
  · rw [NodeSelf.setSuccessor_self]
    apply h.self_IP
  · rw [NodeSelf.Alive, NodeSelf.setSuccessor_successor_of_ne _ _ hk]
    apply h.alive
  · intro j hj halive
    rw [NodeSelf.Alive, NodeSelf.setSuccessor_successor] at halive
    rw [NodeSelf.setSuccessor_successor]
    split_ifs at halive ⊢
    · exact absurd rfl halive
    · exact h.fits j hj halive
  · rw [hpred, hhas]
    apply h.pred

/-- The result of a probe that is for the next node when it is of its entry. -/
theorem KnowsNext.checked (h : V.KnowsNext i s) (cb : CheckCb) {success : Bool}
    (hok : cb = .succResult (V.slot i).val → success = true) :
  V.KnowsNext i (nodeCheckResult (idle s) cb success).node
  := by
  cases success with
  | true =>
    have hsame : (nodeCheckResult (idle s) cb true).node = s := by cases cb <;> rfl
    rw [hsame]
    exact h
  | false =>
    cases cb with
    | predResult =>
      have hcleared : V.KnowsNext i { s with hasPred := false, predecessor := nullNode } := by
        refine h.congr rfl rfl ?_
        intro hhas
        cases hhas
      exact hcleared
    | succResult sn =>
      apply h.clear
      rintro rfl
      cases hok rfl

/-- A notification is handled. -/
theorem KnowsNext.notified (h : V.KnowsNext i s) (hIP : n.IP ≠ 0) (hn : n.id ∈ V.members)
    (hnext : n.id ∈ V.running → V.next n.id = i) :
  V.KnowsNext i (nodeNotified s n)
  := by
  rw [nodeNotified]
  split_ifs
  · exact h.congr rfl rfl fun _ => ⟨hIP, hn, hnext⟩
  · exact h

/-- Fingers are looked up. -/
theorem KnowsNext.fixed (h : V.KnowsNext i s) :
  V.KnowsNext i (nodeFixFingers (idle s)).node
  := by
  obtain ⟨fingers, hnode⟩ := (fixesFingers s).node
  rw [hnode]
  exact h.congr rfl rfl h.pred

/-! ### What is sent -/

theorem early_cons {f : Frame} (h : V.Early (f :: frames) i k) (hne : frames ≠ []) :
  V.Early frames i k
  := by
  obtain ⟨g, frames, rfl⟩ := List.exists_cons_of_ne_nil hne
  refine ⟨h.running, h.le, ?_⟩
  rw [← List.getLast?_cons_cons]
  exact h.bottom

/-- Who forwards a lookup puts itself on top of the stack. -/
theorem Settled.push (h : V.Settled frames) (i : HashType) :
  V.Settled (⟨i, relay⟩ :: frames) ∧ frames ≠ []
  := by
  obtain ⟨id, hstack⟩ := h.stack
  obtain ⟨hpush, hjoiner⟩ := hstack.push (Set.mem_univ i)
  refine ⟨⟨⟨id, hpush⟩, ?_⟩, ?_⟩
  · rw [hjoiner]
    exact h.joiner
  · rintro rfl
    exact hstack

/-- What a running node answers or sends on is allowed. -/
theorem Allows.out {m out : Msg} {peer : Peer} (h : V.Allows m) (hi : i ∈ V.running)
    (hs : V.KnowsNext i s) (hrec : Receives i m ⟨s, true⟩ peer (some out)) :
  V.Allows out
  := by
  obtain ⟨k, hk, -, halive, hfirst, hfits⟩ := hs.first
  have hIP : s.firstSucc.IP ≠ 0 := hfirst ▸ halive
  generalize ho : some out = o at hrec
  cases hrec with
  | answer hid hans =>
    cases ho
    exact ⟨hIP, h.1, fun x j hearly => absurd hi (h.2 x j hearly)⟩
  | forward hid hans =>
    cases ho
    obtain ⟨hpush, hne⟩ := h.1.push i
    exact ⟨hpush, fun x j hearly => absurd hi (h.2 x j (early_cons hearly hne))⟩
  | @relayed _ n hops f frames =>
    cases ho
    obtain ⟨hIP, ⟨⟨id, hstack⟩, hjoiner⟩, hfit⟩ := h
    refine ⟨hIP, ⟨⟨id, hstack.2.2⟩, hjoiner⟩, ?_⟩
    intro x j hearly
    apply hfit x j
    exact ⟨hearly.running, hearly.le, List.getLast?_cons_cons.trans hearly.bottom⟩
  | @entry _ n hops j hj =>
    obtain ⟨-, -, hfit⟩ := h
    split_ifs at ho with hlt
    cases ho
    refine ⟨⟨⟨0, Set.mem_univ i, by omega, by omega⟩, ?_⟩, ?_⟩
    · intro x hx
      cases hx
    · intro x j' hearly
      obtain ⟨hx, hle, hbottom⟩ := hearly
      rw [List.getLast?_singleton] at hbottom
      injection hbottom with hframe
      injection hframe with howner hcb
      injection hcb with hval
      subst howner
      have hlt' : j < V.slot i := by
        apply Fin.lt_def.mpr
        have hle' := Fin.le_def.mp hle
        omega
      rcases hfit i j ⟨hi, hlt'.le, rfl⟩ with ⟨heq, -⟩ | ⟨-, hlost⟩
      · exact absurd heq hlt'.ne
      · exact hlost.not_running
  | @predRequest _ f hops =>
    cases ho
    obtain ⟨hcb, hdest⟩ := h
    refine ⟨hcb, ?_⟩
    rw [predAnswer]
    split_ifs with hhas
    · right
      obtain ⟨hIP, hmem, hnext⟩ := hs.pred hhas
      refine ⟨hIP, hmem, ?_⟩
      rintro howner heq
      -- otherwise the node would come before itself
      rw [heq, ← hdest howner hi] at hnext
      exact V.next_ne hi (hnext hi)
    · left
      rfl
  | @predReply _ n hops =>
    cases ho
    obtain ⟨-, hn⟩ := h
    have hadopted := hs.adopt hi (hn.imp_right fun hn => ⟨hn.1, hn.2.1, hn.2.2 hi⟩)
    obtain ⟨k', -, -, -, -, hfits'⟩ := hadopted.first
    exact ⟨V.subset hi, fun hdest _ => hfits'.eq_next_of_running hdest⟩
  | _ => cases ho

/-- What a running node starts is allowed. -/
theorem allows_started {sent : List Msg} (hi : i ∈ V.running) (hs : V.KnowsNext i s)
    (h : Starts i s s' sent) {m : Msg} (hm : m ∈ sent) :
  V.Allows m
  := by
  have hsettled : ∀ {cb : FoundCb}, Net.joins cb = false → ∀ id, Waits Set.univ id ⟨i, cb⟩ →
      V.Settled [⟨i, cb⟩] := by
    intro cb hcb id hwaits
    refine ⟨⟨id, hwaits⟩, ?_⟩
    intro x hx
    simp [joinerOf, hcb] at hx
  cases h with
  | stabilise =>
    obtain rfl := List.mem_singleton.mp hm
    obtain ⟨k, -, -, -, -, hfits⟩ := hs.first
    exact ⟨rfl, fun _ hdest => hfits.eq_next_of_running hdest⟩
  | @updateSuccs k hk =>
    obtain rfl := List.mem_singleton.mp hm
    obtain ⟨k', hle, hk', halive, -, -⟩ := hs.first
    obtain rfl : k = k' := Fin.ext (Int.natCast_inj.mp (hk.symm.trans hk'))
    have hlast := V.slot_lt hi
    have hle' := Fin.le_def.mp hle
    refine ⟨hsettled rfl 0 ⟨Set.mem_univ i, by omega, by omega⟩, ?_⟩
    rintro x j ⟨hx, hj, hbottom⟩
    rw [List.getLast?_singleton] at hbottom
    injection hbottom with hframe
    injection hframe with howner hcb
    injection hcb with hval
    subst howner
    have hlt : k < V.slot i := by
      apply Fin.lt_def.mpr
      have hj' := Fin.le_def.mp hj
      omega
    rcases hs.fits k hle halive with ⟨heq, -⟩ | ⟨-, hlost⟩
    · exact absurd heq hlt.ne
    · exact hlost.not_running
  | fixFingers =>
    obtain ⟨dest, k, -, rfl⟩ := eq_of_mem_route_fixFingers hm
    refine ⟨hsettled rfl 0 (Set.mem_univ i), ?_⟩
    rintro x j ⟨-, -, hbottom⟩
    cases hbottom
  | lookup hid hans =>
    obtain rfl := List.mem_singleton.mp hm
    refine ⟨hsettled rfl 0 (Set.mem_univ i), ?_⟩
    rintro x j ⟨-, -, hbottom⟩
    cases hbottom
  | answered => cases hm

end Survivors

/-! ### What is probed -/

section Checks

variable {i : HashType} {s : NodeSelf}

/-- A node probes its successors, each with the number of its entry. -/
theorem nodeCheckSuccessors_eq (s : NodeSelf) :
  (nodeCheckSuccessors (idle s)).node = s
    ∧ (nodeCheckSuccessors (idle s)).net.sent
      = ((List.finRange numOfSuccs).filter fun k => s.Alive k).map fun k =>
        .alive (s.successor k) (.succResult k.val)
  := by
  rw [nodeCheckSuccessors]
  -- the induction is on the entries that have been looked at, from the last one on
  generalize List.finRange numOfSuccs = ks
  induction ks using List.reverseRecOn with
  | nil => exact ⟨rfl, rfl⟩
  | append_singleton ks k ih =>
    obtain ⟨hnode, hsent⟩ := ih
    rw [List.foldl_append, List.filter_append, List.map_append, ← hsent]
    generalize ks.foldl _ (idle s) = p at hnode ⊢
    simp only [List.foldl_cons, List.foldl_nil, Process.touch_node, hnode]
    by_cases halive : s.Alive k
    · have hIP : (s.successor k).IP ≠ 0 := halive
      simp only [if_pos hIP, List.filter_cons, halive, decide_true, if_true]
      exact ⟨hnode, rfl⟩
    · have hIP : ¬ (s.successor k).IP ≠ 0 := halive
      simp only [if_neg hIP, List.filter_cons, halive, decide_false]
      exact ⟨hnode, (List.append_nil _).symm⟩

/-- Probing changes nothing about the node. -/
theorem Check.fire_node (t : Check) (s : NodeSelf) :
  (t.fire (idle s)).node = s
  := by
  cases t with
  | succs => exact (nodeCheckSuccessors_eq s).1
  | pred =>
    rw [Check.fire, nodeCheckPredecessor]
    split_ifs <;> rfl

/-- Nothing but probes is sent. -/
theorem Check.route_fire (t : Check) (s : NodeSelf) :
  route i [] (t.fire (idle s)).net.sent = []
  := by
  cases t with
  | succs =>
    rw [Check.fire, (nodeCheckSuccessors_eq s).2]
    simp [route, List.filterMap_map, Function.comp_def, Sent.request, Sent.answer]
  | pred =>
    rw [Check.fire, nodeCheckPredecessor]
    split_ifs <;> rfl

/-- The result of a probe is not told to anyone. -/
theorem Remains.route_checkResult (s : NodeSelf) (cb : CheckCb) (success : Bool) :
  route i [] (nodeCheckResult (idle s) cb success).net.sent = []
  := by
  cases cb <;> cases success <;> rfl

/-- Whom a node probes: its successors, or its predecessor. -/
theorem Remains.mem_probed_succs {p : Probe} :
  p ∈ probed i (Check.succs.fire (idle s))
    ↔ ∃ k, s.Alive k ∧ p = { owner := i, dest := s.successor k, cb := .succResult k.val }
  := by
  rw [probed, Check.fire, (nodeCheckSuccessors_eq s).2]
  simp [probesOf, List.filterMap_map, Function.comp_def, eq_comm]

theorem Remains.mem_probed_pred {p : Probe} :
  p ∈ probed i (Check.pred.fire (idle s))
    ↔ s.hasPred = true ∧ p = { owner := i, dest := s.predecessor, cb := .predResult }
  := by
  rw [probed, Check.fire, nodeCheckPredecessor]
  cases hhas : s.hasPred
  · simp [hhas, probesOf]
  · simp [hhas, probesOf, nodeCheckNode, Remote.checkNode]

end Checks

/-! ### Every step -/

namespace Survivors

variable {V : Survivors} {w w' : Remains} {i : HashType} {s s' : NodeSelf}

theorem KnowsNext.change (h : V.KnowsNext i s) (hi : i ∈ V.running) {msgs : List Msg}
    (hmsgs : ∀ m ∈ msgs, V.Allows m) (hc : Change msgs i s s') :
  V.KnowsNext i s'
  := by
  cases hc with
  | kept => exact h
  | @entry n hops k hk hm =>
    obtain ⟨hIP, -, hfits⟩ := hmsgs _ hm
    exact h.write hIP fun hle => hfits i k ⟨hi, hle, rfl⟩
  | finger hm => exact h.congr rfl rfl h.pred
  | fixFingers => exact h.fixed
  | adopt hm =>
    obtain ⟨-, hn⟩ := hmsgs _ hm
    exact h.adopt hi (hn.imp_right fun hn => ⟨hn.1, hn.2.1, hn.2.2 hi⟩)
  | notify hip hm =>
    obtain ⟨hmem, hnext⟩ := hmsgs _ hm
    exact h.notified hip hmem fun hid => (hnext hi hid).symm

namespace Intact

/-- The running nodes are the ones that were joined. -/
theorem joined (h : V.Intact w) :
  w.net.Joined = V.running
  := by
  ext i
  constructor
  · rintro ⟨s, hs⟩
    exact (h.peer hs).1
  · exact h.running

theorem knows (h : V.Intact w) (hi : w.net.peer i = some ⟨s, true⟩) :
  V.KnowsNext i s
  := (h.peer hi).2.2

theorem mem (h : V.Intact w) (hi : w.net.peer i = some ⟨s, true⟩) :
  i ∈ V.running
  := (h.peer hi).1

/-- A running node changes. -/
theorem update (h : V.Intact w) (hi : i ∈ V.running) (hs : V.KnowsNext i s) {msgs : List Msg}
    {probes : List Probe} (hmsgs : ∀ m ∈ msgs, V.Allows m) (hprobes : ∀ p ∈ probes, V.Aims p) :
  V.Intact { net := { peer := update w.net.peer i (some ⟨s, true⟩), msgs := msgs }
             probes := probes }
  := by
  refine ⟨?_, ?_, hmsgs, hprobes⟩
  · intro j peer hj
    dsimp only at hj
    by_cases hji : j = i
    · subst hji
      rw [Function.update_self] at hj
      cases hj
      exact ⟨hi, rfl, hs⟩
    · rw [Function.update_of_ne hji] at hj
      exact h.peer hj
  · intro j hj
    dsimp only
    by_cases hji : j = i
    · subst hji
      exact ⟨s, Function.update_self ..⟩
    · rw [Function.update_of_ne hji]
      exact h.running hj

theorem orderly (h : V.Intact w) :
  w.net.Orderly
  := by
  have hjoined : ∀ {i s b}, w.net.peer i = some ⟨s, b⟩ → b = true := fun hi => (h.peer hi).2.1
  refine ⟨fun hi => (h.peer hi).2.2.self_id, ?_⟩
  intro m hm
  have hok := h.msg m hm
  cases m with
  | succRequest dest id frames => exact fun s b hd => hjoined hd
  | succReply n hops frames =>
    obtain ⟨hIP, ⟨⟨id, hstack⟩, hjoiner⟩, -⟩ := hok
    refine ⟨hIP, ?_⟩
    rintro f rest s b rfl hd
    refine ⟨Set.univ, id, hstack, fun _ => hjoined hd, ?_⟩
    rintro rfl hcb
    have hnot := hjoiner f.owner (if_pos hcb)
    exact absurd (h.peer hd).1 hnot
  | predRequest dest f => exact fun s b hd => hjoined hd
  | predReply n hops f => exact ⟨hok.1, fun s b hd => hjoined hd⟩
  | notify dest id port => exact fun s b hd => hjoined hd

/-- What a network of which nodes have failed does is what the protocol says. -/
theorem turn (h : V.Intact w) {net' : Net} (hs : Net.Step w.net net') :
  Net.Turn w.net net'
  := by
  have hord := h.orderly
  cases hs with
  | timer t hi =>
    obtain ⟨k, -, hk, -⟩ := (h.knows hi).first
    exact .started hi (t.starts hk)
  | lookup id arg hi => exact .started hi (starts_lookup (h.knows hi).self_id id arg)
  | join mem port contact arg hi hc hf => exact .asked hi hc
  | succRequest hm hd hne => exact .received ((Net.Arrives.succRequest hm hd hne).received hord)
  | succReply hm hd => exact .received ((Net.Arrives.succReply hm hd).received hord)
  | predRequest hops hm hd => exact .received ((Net.Arrives.predRequest hops hm hd).received hord)
  | predReply hm hd => exact .received ((Net.Arrives.predReply hm hd).received hord)
  | notify ip hip hm hd => exact .received ((Net.Arrives.notify ip hip hm hd).received hord)
  | lose hm => exact .lost hm

theorem of_turn (h : V.Intact w) {net' : Net} (ht : Net.Turn w.net net')
    (hsame : ∀ i, w.net.peer i = none → net'.peer i = none) :
  V.Intact { w with net := net' }
  := by
  cases ht with
  | received hr =>
    obtain @⟨i, ⟨s, b⟩, peer', out, before, after, hm, hi, hrec⟩ := hr
    obtain ⟨hrun, hb, hknows⟩ := h.peer hi
    dsimp only at hb hknows
    subst hb
    have hin := hm ▸ List.mem_append_right before List.mem_cons_self
    obtain ⟨s', rfl, hchange⟩ := hrec.change hin
    apply h.update hrun (hknows.change hrun h.msg hchange) _ h.probe
    intro m hm'
    rcases List.mem_append.mp hm' with hm' | hm'
    · exact h.msg m ((Net.kept hm).subset hm')
    · obtain rfl := Option.mem_toList.mp hm'
      exact (h.msg _ hin).out hrun hknows hrec
  | started hi hstart =>
    obtain ⟨hrun, -, hknows⟩ := h.peer hi
    apply h.update hrun (hknows.change hrun h.msg hstart.change) _ h.probe
    intro m hm
    rcases List.mem_append.mp hm with hm | hm
    · exact h.msg m hm
    · exact allows_started hrun hknows hstart hm
  | @asked i s contact arg hi hc =>
    have hnone := hsame i hi
    dsimp only at hnone
    rw [Function.update_self] at hnone
    cases hnone
  | lost hm =>
    exact ⟨h.peer, h.running, fun m hm' => h.msg m ((Net.kept hm).subset hm'), h.probe⟩

/-- A probe that is sent is for the node in its entry. -/
theorem aims_probed (hi : i ∈ V.running) (h : V.KnowsNext i s) {t : Check} {p : Probe}
    (hp : p ∈ Remains.probed i (t.fire (idle s))) :
  V.Aims p
  := by
  cases t with
  | succs =>
    obtain ⟨k, halive, rfl⟩ := Remains.mem_probed_succs.mp hp
    refine ⟨hi, ?_⟩
    intro hcb
    injection hcb with hval
    obtain rfl : k = V.slot i := Fin.ext (Int.natCast_inj.mp hval)
    rcases h.fits _ le_rfl halive with ⟨-, heq⟩ | ⟨hlt, -⟩
    · exact heq
    · exact absurd rfl hlt.ne
  | pred =>
    obtain ⟨-, rfl⟩ := Remains.mem_probed_pred.mp hp
    refine ⟨hi, ?_⟩
    rintro ⟨⟩

theorem step (h : V.Intact w) (hs : Remains.Step w w') :
  V.Intact w'
  := by
  cases hs with
  | net hs hsame => exact h.of_turn (h.turn hs) hsame
  | @check i s t hi =>
    obtain ⟨hrun, -, hknows⟩ := h.peer hi
    rw [Net.act, t.fire_node, t.route_fire, List.append_nil]
    apply h.update hrun hknows h.msg
    intro p hp
    rcases List.mem_append.mp hp with hp | hp
    · exact h.probe p hp
    · exact aims_probed hrun hknows hp
  | @outcome p s b before after hp hi =>
    obtain ⟨hrun, hb, hknows⟩ := h.peer hi
    dsimp only at hb hknows
    subst hb
    have hin : p ∈ w.probes := hp ▸ List.mem_append_right _ List.mem_cons_self
    rw [Net.act, Remains.route_checkResult, List.append_nil]
    apply h.update hrun _ h.msg
    · intro p' hp'
      apply h.probe p'
      rw [hp]
      exact ((List.sublist_cons_self p after).append_left before).subset hp'
    · apply hknows.checked
      intro hcb
      have hdest := (h.probe p hin).2 hcb
      obtain ⟨t, ht⟩ := h.running (V.next_running hrun).mem
      rw [hdest, ht]
      rfl
  | @ended p before after hp =>
    refine ⟨h.peer, h.running, h.msg, ?_⟩
    intro p' hp'
    apply h.probe p'
    rw [hp]
    exact ((List.sublist_cons_self p after).append_left before).subset hp'

/-- Whatever happens, the nodes that go on know the next one. -/
theorem run (h : V.Intact w) (hrun : Relation.ReflTransGen Remains.Step w w') :
  V.Intact w'
  := by
  induction hrun with
  | refl => exact h
  | tail _ hs ih => exact ih.step hs

end Intact

end Survivors
