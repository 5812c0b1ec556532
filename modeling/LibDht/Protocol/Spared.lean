import LibDht.Protocol.Calm
import LibDht.Protocol.Mending

/-!
# Failures in a calm network

When nodes of a calm network fail, and every node that goes on has another one among its first
seven successors, then the nodes that are left know the next one, and they form the ideal ring
again.
-/

open Circle Filter Function

namespace Net

/-! ### The first node that goes on -/

section Arrays

variable {J R : Set HashType} {i : HashType} {s : NodeSelf} {k : Fin numOfSuccs}

theorem SuccsRight.mem (h : SuccsRight J i s) (k : Fin numOfSuccs) :
  (s.successor k).id ∈ J
  := by
  obtain ⟨k, hk⟩ := k
  cases k with
  | zero => exact h.first.mem
  | succ k => exact (h.next ⟨k, Nat.lt_of_succ_lt hk⟩ ⟨k + 1, hk⟩ rfl).mem

/-- After entries of nodes that are not in `R` the entry `k` is not past any node of `R`. -/
theorem SuccsRight.le_of_before (h : SuccsRight J i s) (hR : R ⊆ J)
    (hbefore : ∀ j < k, (s.successor j).id ∉ R) {x : HashType} (hx : x ∈ R) (hxi : x ≠ i) :
  (s.successor k).id ≠ i ∧ clockwise i (s.successor k).id ≤ clockwise i x
  := by
  obtain ⟨k, hk⟩ := k
  induction k with
  | zero => exact h.first.le x (hR hx) hxi
  | succ k ih =>
    have hlt : (⟨k, Nat.lt_of_succ_lt hk⟩ : Fin numOfSuccs) < ⟨k + 1, hk⟩ := Nat.lt_succ_self k
    obtain ⟨-, hle⟩ := ih _ fun j hj => hbefore j (hj.trans hlt)
    have hlt' : clockwise i (s.successor ⟨k, Nat.lt_of_succ_lt hk⟩).id < clockwise i x := by
      apply lt_of_le_of_ne hle
      intro heq
      apply hbefore _ hlt
      rw [clockwise_injective i heq]
      exact hx
    have hnext := h.next ⟨k, Nat.lt_of_succ_lt hk⟩ ⟨k + 1, hk⟩ rfl
    exact ⟨hnext.ne_of_lt (hR hx) hlt', hnext.le_of_lt (hR hx) hlt'⟩

end Arrays

/-- The nodes that are `running` go on: each of them has another one among its first seven
successors. -/
structure Spares (net : Net) (running : HashType → Bool) : Prop where
  joined : ∀ {i}, running i = true → i ∈ net.Joined
  other : ∀ {i}, running i = true → ∃ j, running j = true ∧ j ≠ i
  near : ∀ {i s}, running i = true → net.peer i = some ⟨s, true⟩ →
    ∃ k : Fin numOfSuccs, k.val + 1 < numOfSuccs ∧ running (s.successor k).id = true

/-- Probes of successors are of the ones in the array. -/
def ProbesOwn (net : Net) (probes : List Probe) : Prop :=
  ∀ p ∈ probes, ∀ s (k : Fin numOfSuccs), net.peer p.owner = some ⟨s, true⟩ →
    p.cb = .succResult k.val → p.dest.id = (s.successor k).id

end Net

/-! ### Who is left knows the next one -/

/-- Of two running nodes that follow one another the second is the next one that runs. -/
theorem Survivors.next_eq (V : Survivors) {i j : HashType} (hi : i ∈ V.running)
    (hj : j ∈ V.running) (h : Next V.members i j) :
  V.next i = j
  := by
  have hnext := V.next_running hi
  obtain ⟨hji, hle⟩ := h.le _ (V.subset hnext.mem) (V.next_ne hi)
  exact clockwise_injective i (le_antisymm (hnext.le j hj hji).2 hle)

/-- At the bottom of a stack is who waits for the reply. -/
theorem Stack.waits {J : Set HashType} {id : HashType} {frames : List Frame} {f : Frame}
    (h : Stack J id frames) (hf : frames.getLast? = some f) :
  Waits J id f
  := by
  induction frames with
  | nil => cases hf
  | cons g frames ih =>
    cases frames with
    | nil =>
      cases hf
      exact h
    | cons g' frames => exact ih h.2.2 (List.getLast?_cons_cons.symm.trans hf)

/-- The nodes that go on are the ones of the network that are `running`, and before the failure
the next one is in the first entry that has not failed. -/
structure Survivors.LeftOf (V : Survivors) (net : Net) (running : HashType → Bool) : Prop where
  members : V.members = net.Joined
  running : ∀ {i}, i ∈ V.running ↔ running i = true
  next : ∀ {i s}, i ∈ V.running → net.peer i = some ⟨s, true⟩ →
    (s.successor (V.slot i)).id = V.next i
  before : ∀ {i s}, i ∈ V.running → net.peer i = some ⟨s, true⟩ →
    ∀ j < V.slot i, (s.successor j).id ∉ V.running

theorem Survivors.LeftOf.running_eq {V : Survivors} {net : Net} {running : HashType → Bool}
    (h : V.LeftOf net running) :
  V.running = { x | running x = true }
  := Set.ext fun _ => h.running

namespace Net

variable {c : HashType} {net : Net} {running : HashType → Bool} {probes : List Probe}

/-- The first running node in the successor array of a running one. -/
theorem Spares.exists_slot (h : Spares net running) {i : HashType} {s : NodeSelf}
    (hi : running i = true) (hs : net.peer i = some ⟨s, true⟩) :
  ∃ k : Fin numOfSuccs, k.val + 1 < numOfSuccs ∧ running (s.successor k).id = true
    ∧ ∀ j < k, ¬ running (s.successor j).id = true
  := by
  obtain ⟨k, hk, hrun⟩ := h.near hi hs
  obtain ⟨m, hm, hmin⟩ :=
    WellFounded.has_min wellFounded_lt { k | running (s.successor k).id = true } ⟨k, hrun⟩
  refine ⟨m, ?_, hm, fun j hj hj' => hmin j hj' hj⟩
  have hle := Fin.le_def.mp (not_lt.mp (hmin k hrun))
  omega

/-- When nodes of a calm network fail, each of the others is left with the next one in the first
entry that has not failed. -/
theorem Calm.exists_survivors (h : Calm c net) (hspares : Spares net running) :
  ∃ V : Survivors, V.LeftOf net running
  := by
  have hone : ∀ i, ∃ (n : HashType) (k : Fin numOfSuccs), running i = true →
      ∃ s, net.peer i = some ⟨s, true⟩ ∧ (s.successor k).id = n ∧ k.val + 1 < numOfSuccs
        ∧ running n = true ∧ ∀ j < k, ¬ running (s.successor j).id = true := by
    intro i
    by_cases hi : running i = true
    · obtain ⟨s, hs⟩ := hspares.joined hi
      obtain ⟨k, hk, hrun, hbefore⟩ := hspares.exists_slot hi hs
      exact ⟨_, k, fun _ => ⟨s, hs, rfl, hk, hrun, hbefore⟩⟩
    · exact ⟨i, 0, fun hi' => absurd hi' hi⟩
  choose next slot hspec using hone
  have hsub : { i | running i = true } ⊆ net.Joined := fun i hi => hspares.joined hi
  have hle : ∀ {i}, running i = true → ∀ x, running x = true → x ≠ i →
      next i ≠ i ∧ clockwise i (next i) ≤ clockwise i x := by
    intro i hi x hx hxi
    obtain ⟨s, hs, hid, -, -, hbefore⟩ := hspec i hi
    rw [← hid]
    exact (h.succs hs).le_of_before hsub hbefore hx hxi
  refine ⟨⟨net.Joined, { i | running i = true }, next, slot, hsub, ?_, ?_, ?_, ?_⟩, rfl, Iff.rfl,
    ?_, ?_⟩
  · intro i hi
    obtain ⟨s, -, -, -, hrun, -⟩ := hspec i hi
    exact ⟨hrun, fun x hx hxi => hle hi x hx hxi⟩
  · intro i hi
    obtain ⟨j, hj, hji⟩ := hspares.other hi
    exact (hle hi j hj hji).1
  · intro i hi
    obtain ⟨s, -, -, hk, -⟩ := hspec i hi
    exact hk
  · intro i hi hzero
    obtain ⟨s, hs, hid, -⟩ := hspec i hi
    rw [← hid, hzero]
    exact (h.succs hs).first
  · intro i s hi hs
    obtain ⟨s', hs', hid, -⟩ := hspec i hi
    rw [hs] at hs'
    cases hs'
    exact hid
  · intro i s hi hs
    obtain ⟨s', hs', -, -, -, hbefore⟩ := hspec i hi
    rw [hs] at hs'
    cases hs'
    exact hbefore

end Net

namespace Survivors.LeftOf

open Net

variable {V : Survivors} {c : HashType} {net : Net} {running : HashType → Bool}
  {probes : List Probe} {i : HashType} {s : NodeSelf}

theorem subset_joined (h : V.LeftOf net running) :
  V.running ⊆ net.Joined
  := h.members ▸ V.subset

/-- The entries before that of the next node are of failed ones. -/
theorem lost (h : V.LeftOf net running) (hcalm : Calm c net) (hi : i ∈ V.running)
    (hs : net.peer i = some ⟨s, true⟩) {j : Fin numOfSuccs} (hj : j < V.slot i) :
  V.Lost i (s.successor j).id
  := by
  have hnext := V.next_running hi
  have hfailed := h.before hi hs
  refine ⟨h.members ▸ (hcalm.succs hs).mem j, hfailed j hj, ?_⟩
  have hle := (hcalm.succs hs).le_of_before h.subset_joined
    (fun j' hj' => hfailed j' (hj'.trans hj)) hnext.mem (V.next_ne hi)
  apply lt_of_le_of_ne hle.2
  intro heq
  apply hfailed j hj
  rw [clockwise_injective i heq]
  exact hnext.mem

theorem fits (h : V.LeftOf net running) (hcalm : Calm c net) (hi : i ∈ V.running)
    (hs : net.peer i = some ⟨s, true⟩) {k : Fin numOfSuccs} (hk : k ≤ V.slot i) :
  V.Fits i k (s.successor k).id
  := by
  rcases hk.eq_or_lt with rfl | hlt
  · exact Or.inl ⟨rfl, h.next hi hs⟩
  · exact Or.inr ⟨hlt, h.lost hcalm hi hs hlt⟩

/-- Who follows another one is the next one after it when both go on. -/
theorem eq_next (h : V.LeftOf net running) {j : HashType} (hi : i ∈ V.running)
    (hj : j ∈ V.running) (hnext : Next net.Joined i j) :
  j = V.next i
  := by
  rw [← h.members] at hnext
  exact (V.next_eq hi hj hnext).symm

theorem knowsNext (h : V.LeftOf net running) (hcalm : Calm c net) (hi : i ∈ V.running)
    (hs : net.peer i = some ⟨s, true⟩) :
  V.KnowsNext i s
  := by
  have hpeer := hcalm.invariant.peer hs
  refine ⟨hpeer.self_id, hpeer.self_IP, (hcalm.succs hs).alive _, ?_, ?_⟩
  · exact fun k hk _ => h.fits hcalm hi hs hk
  · intro hhas
    have hknown := hpeer.pred hhas
    refine ⟨hknown.IP_ne, h.members ▸ hknown.id_mem, ?_⟩
    intro hpred
    exact (h.eq_next hpred hi (hcalm.pred hs hhas)).symm

/-- Nobody that goes on joins with a lookup. -/
theorem settled (h : V.LeftOf net running) (hcalm : Calm c net) {m : Msg} (hm : m ∈ net.msgs)
    {id : HashType} {frames : List Frame} (hjoiner : m.joiner = joinerOf frames)
    (hstack : Stack net.Joined id frames) :
  V.Settled frames
  := by
  refine ⟨⟨id, hstack.mono (Set.subset_univ _)⟩, ?_⟩
  intro x hx hrun
  exact hcalm.invariant.not_mem_of_joiner hm (hjoiner.trans hx) (h.subset_joined hrun)

/-- The entry that a lookup is for comes after another one. -/
theorem exists_before {id : HashType} {frames : List Frame} {k : Fin numOfSuccs}
    (hstack : Stack net.Joined id frames) (he : V.Early frames i k) :
  ∃ j : Fin numOfSuccs, k.val = j.val + 1
  := by
  obtain ⟨-, hpos, -⟩ := hstack.waits he.bottom
  have hlt := k.isLt
  exact ⟨⟨k.val - 1, by omega⟩, by dsimp only; omega⟩

/-- What is in flight is allowed. -/
theorem allows (h : V.LeftOf net running) (hcalm : Calm c net) {m : Msg} (hm : m ∈ net.msgs) :
  V.Allows m
  := by
  have hok : MsgOk c net.Joined m := hcalm.invariant.msg m hm
  have hagrees := hcalm.agrees m hm
  cases m with
  | succRequest dest id frames =>
    refine ⟨h.settled hcalm hm rfl hok.2, ?_⟩
    intro i k he hdest
    obtain ⟨s, hs⟩ := h.subset_joined he.running
    obtain ⟨j, hj⟩ := exists_before hok.2 he
    have hlt : j < V.slot i := by
      have hle := Fin.le_def.mp he.le
      apply Fin.lt_def.mpr
      omega
    rw [hagrees i s j k hj he.bottom hs] at hdest
    exact h.before he.running hs j hlt hdest
  | succReply n hops frames =>
    obtain ⟨hknown, ⟨id, hstack⟩, -⟩ := hok
    refine ⟨hknown.IP_ne, h.settled hcalm hm rfl hstack, ?_⟩
    intro i k he
    obtain ⟨s, hs⟩ := h.subset_joined he.running
    obtain ⟨j, hj⟩ := exists_before hstack he
    have hk : k ≠ 0 := by
      rintro rfl
      exact Nat.succ_ne_zero _ hj.symm
    rw [hagrees i s k hk he.bottom hs]
    exact h.fits hcalm he.running hs he.le
  | predRequest dest f => exact ⟨hok.2.2, fun howner hdest => h.eq_next howner hdest hagrees⟩
  | predReply n hops f =>
    refine ⟨hok.2.1, ?_⟩
    rcases hok.2.2 with hnull | hknown
    · exact Or.inl hnull
    · apply hagrees.imp_right
      intro howner
      refine ⟨hknown.IP_ne, h.members ▸ hknown.id_mem, ?_⟩
      intro hrun
      rw [howner]
      exact Ne.symm (V.next_ne hrun)
  | notify dest id port => exact ⟨h.members ▸ hok.2, fun hdest hid => h.eq_next hid hdest hagrees⟩

/-- When nodes of a calm network fail, the others know the next one. -/
theorem intact (h : V.LeftOf net running) (hcalm : Calm c net) (hprobes : net.ProbesOwn probes) :
  V.Intact (net.fail running probes)
  := by
  have hfail : ∀ {i}, i ∈ V.running → (net.fail running probes).net.peer i = net.peer i :=
    fun hi => if_pos (h.running.mp hi)
  refine ⟨?_, ?_, fun m hm => h.allows hcalm hm, ?_⟩
  · intro i peer hi
    have hrun : i ∈ V.running := by
      by_contra hnot
      have hnone : (net.fail running probes).net.peer i = none :=
        if_neg fun hrun => hnot (h.running.mpr hrun)
      rw [hnone] at hi
      cases hi
    obtain ⟨s, hs⟩ := h.subset_joined hrun
    rw [hfail hrun, hs] at hi
    cases hi
    exact ⟨hrun, rfl, h.knowsNext hcalm hrun hs⟩
  · intro i hi
    obtain ⟨s, hs⟩ := h.subset_joined hi
    exact ⟨s, (hfail hi).trans hs⟩
  · intro p hp
    obtain ⟨hin, hrun⟩ := List.mem_filter.mp hp
    have howner := h.running.mpr hrun
    refine ⟨howner, ?_⟩
    intro hcb
    obtain ⟨s, hs⟩ := h.subset_joined howner
    rw [hprobes p hin s _ hs hcb]
    exact h.next howner hs

end Survivors.LeftOf

namespace Net

variable {c : HashType} {net : Net} {running : HashType → Bool} {probes : List Probe}

/-- When nodes of a calm network fail, then in whatever order what was in flight arrives and is
lost, nodes probe others, and timers fire, every node that goes on finds the next one in its
successor array, after entries of failed nodes only, and not in the last one. -/
theorem Calm.finds_next (h : Calm c net) (hspares : Spares net running)
    (hprobes : net.ProbesOwn probes) {w : Remains}
    (hrun : Relation.ReflTransGen Remains.Step (net.fail running probes) w) {i : HashType}
    {peer : Peer} (hi : w.net.peer i = some peer) :
  ∃ k : Fin numOfSuccs, k.val + 1 < numOfSuccs ∧ peer.node.Alive k
    ∧ Next { x | running x = true } i (peer.node.successor k).id
    ∧ ∀ j < k, peer.node.Alive j →
      (peer.node.successor j).id ∈ net.Joined ∧ running (peer.node.successor j).id = false
  := by
  obtain ⟨V, hleft⟩ := h.exists_survivors hspares
  obtain ⟨hi', -, hknows⟩ := ((hleft.intact h hprobes).run hrun).peer hi
  refine ⟨V.slot i, V.slot_lt hi', hknows.alive, ?_, ?_⟩
  · rcases hknows.fits _ le_rfl hknows.alive with ⟨-, heq⟩ | ⟨hlt, -⟩
    · rw [heq, ← hleft.running_eq]
      exact V.next_running hi'
    · exact absurd rfl hlt.ne
  · intro j hj halive
    rcases hknows.fits j hj.le halive with ⟨heq, -⟩ | ⟨-, hlost⟩
    · exact absurd heq hj.ne
    · refine ⟨hleft.members ▸ hlost.mem, ?_⟩
      rw [← Bool.not_eq_true]
      exact fun hj' => hlost.not_running (hleft.running.mpr hj')

/-- There are fair runs of what is left of a calm network. -/
theorem Calm.exists_fair (h : Calm c net) (hspares : Spares net running)
    (hprobes : net.ProbesOwn probes) :
  ∃ run, run 0 = net.fail running probes ∧ Remains.Fair run
  := by
  obtain ⟨V, hleft⟩ := h.exists_survivors hspares
  exact (Remains.serviceable V).exists_fair (hleft.intact h hprobes)

/-- In every fair run of what is left of a calm network the ring of the running nodes is formed
again. The entries of a node before that of the next one that runs stay empty: the array is
not moved up. -/
theorem Calm.mended (h : Calm c net) (hspares : Spares net running)
    (hprobes : net.ProbesOwn probes) {run : ℕ → Remains} (hfair : Remains.Fair run)
    (hzero : run 0 = net.fail running probes) :
  ∃ T, ∀ n ≥ T, (run n).net.Joined = { x | running x = true } ∧ (run n).net.Ideal
    ∧ ∀ i s s₀ (k : Fin numOfSuccs), (run n).net.peer i = some ⟨s, true⟩ →
      net.peer i = some ⟨s₀, true⟩ → running (s₀.successor k).id = true →
      (∀ j < k, running (s₀.successor j).id = false) → nodeFirstAliveSucc s = k.val
  := by
  obtain ⟨V, hleft⟩ := h.exists_survivors hspares
  have hV := hleft.intact h hprobes
  rw [← hzero] at hV
  obtain ⟨T, hT⟩ := hfair.mends hV
  use T
  intro n hn
  obtain ⟨hjoined, hideal, hslot⟩ := hT n hn
  refine ⟨hjoined.trans hleft.running_eq, hideal, ?_⟩
  intro i s s₀ k hs hs₀ hrun hbefore
  have hi : i ∈ V.running := hjoined ▸ ⟨s, hs⟩
  rw [hslot i s hs]
  -- both are the first entry of a running node
  rcases lt_trichotomy k (V.slot i) with hlt | rfl | hlt
  · exact absurd (hleft.running.mpr hrun) (hleft.before hi hs₀ k hlt)
  · rfl
  · have hnext := hleft.running.mp (V.next_running hi).mem
    rw [← hleft.next hi hs₀, hbefore _ hlt] at hnext
    cases hnext

end Net

/-! ### Three nodes, one of which fails -/

namespace Net

/-- The node that follows among `5`, `7` and `9`. -/
def threeNext (i : HashType) : HashType :=
  if i = 5 then 7 else if i = 7 then 9 else 5

def threeEntry (i : HashType) : NodeInfo :=
  { id := i, IP := 0x7F000001, port := 4000 }

theorem threeEntry_IP (i : HashType) :
  (threeEntry i).IP ≠ 0
  := by
  have hne : (0x7F000001 : UInt32) ≠ 0 := by decide
  exact hne

/-- A node that knows the three. -/
def threeNode (i : HashType) : NodeSelf :=
  { NodeSelf.blank with
    self := threeEntry i
    hasPred := true
    predecessor := threeEntry (threeNext (threeNext i))
    successor := fun k => threeEntry (threeNext^[k.val + 1] i) }

/-- The network of the nodes `5`, `7` and `9`, with nothing in flight. -/
def three : Net where
  peer i := if i = 5 ∨ i = 7 ∨ i = 9 then some ⟨threeNode i, true⟩ else none
  msgs := []

theorem three_peer {i : HashType} {peer : Peer} (hi : three.peer i = some peer) :
  (i = 5 ∨ i = 7 ∨ i = 9) ∧ peer = ⟨threeNode i, true⟩
  := by
  rw [three] at hi
  dsimp only at hi
  split_ifs at hi with hmem
  cases hi
  exact ⟨hmem, rfl⟩

theorem mem_joined_three {i : HashType} :
  i ∈ three.Joined ↔ i = 5 ∨ i = 7 ∨ i = 9
  := by
  constructor
  · rintro ⟨s, hs⟩
    exact (three_peer hs).1
  · intro hi
    exact ⟨_, if_pos hi⟩

theorem three_next {i : HashType} (hi : i ∈ three.Joined) :
  Next three.Joined i (threeNext i)
  := by
  constructor
  · rw [mem_joined_three] at hi ⊢
    rcases hi with rfl | rfl | rfl <;> decide
  · intro x hx hxi
    rw [mem_joined_three] at hi hx
    rcases hi with rfl | rfl | rfl <;> rcases hx with rfl | rfl | rfl <;>
      first | exact absurd rfl hxi | decide +kernel

theorem three_iterate {i : HashType} (hi : i ∈ three.Joined) (k : ℕ) :
  threeNext^[k] i ∈ three.Joined
  := by
  induction k with
  | zero => exact hi
  | succ k ih =>
    rw [iterate_succ_apply']
    exact (three_next ih).mem

theorem invariant_three :
  Invariant 5 three
  := by
  refine ⟨mem_joined_three.mpr (Or.inl rfl), ?_, ?_, List.nodup_nil, ?_⟩
  · intro i peer hi
    obtain ⟨hmem, rfl⟩ := three_peer hi
    have hjoined := mem_joined_three.mpr hmem
    refine ⟨rfl, threeEntry_IP i, ?_, ?_, ?_⟩
    · intro _
      exact ⟨three_iterate hjoined 2, threeEntry_IP _⟩
    · exact fun k => Or.inl (Or.inl rfl)
    · intro _
      refine ⟨⟨three_iterate hjoined 1, threeEntry_IP _⟩, ?_⟩
      rcases hmem with rfl | rfl | rfl
      · exact Or.inr (by decide +kernel)
      · exact Or.inr (by decide +kernel)
      · exact Or.inl rfl
  · intro m hm
    cases hm
  · intro x hx
    cases hx

theorem calm_three :
  Calm 5 three
  := by
  refine ⟨invariant_three, ?_, ?_, ?_⟩
  · intro i s hs
    obtain ⟨hmem, heq⟩ := three_peer hs
    cases heq
    have hjoined := mem_joined_three.mpr hmem
    refine ⟨fun k => threeEntry_IP _, three_next hjoined, ?_⟩
    intro j k hjk
    have hnext : Next three.Joined (threeNext^[j.val + 1] i) (threeNext^[k.val + 1] i) := by
      rw [hjk, iterate_succ_apply' threeNext (j.val + 1)]
      exact three_next (three_iterate hjoined (j.val + 1))
    exact hnext
  · intro i s hs _
    obtain ⟨hmem, heq⟩ := three_peer hs
    cases heq
    have hnext := three_next (three_iterate (mem_joined_three.mpr hmem) 2)
    have hround : threeNext^[3] i = i := by
      rcases hmem with rfl | rfl | rfl <;> rfl
    rw [← iterate_succ_apply' threeNext, hround] at hnext
    exact hnext
  · intro m hm
    cases hm

/-- All but the node `7` go on. -/
def notSeven (i : HashType) : Bool :=
  i == 5 || i == 9

theorem notSeven_iff {i : HashType} :
  notSeven i = true ↔ i = 5 ∨ i = 9
  := by
  simp [notSeven]

theorem spares_three :
  Spares three notSeven
  := by
  constructor
  · intro i hi
    rw [mem_joined_three]
    rcases notSeven_iff.mp hi with rfl | rfl
    · exact Or.inl rfl
    · exact Or.inr (Or.inr rfl)
  · intro i hi
    rcases notSeven_iff.mp hi with rfl | rfl
    · exact ⟨9, by decide, by decide⟩
    · exact ⟨5, by decide, by decide⟩
  · intro i s hi hs
    obtain ⟨-, heq⟩ := three_peer hs
    cases heq
    rcases notSeven_iff.mp hi with rfl | rfl
    · exact ⟨1, by decide, by decide⟩
    · exact ⟨0, by decide, by decide⟩

/-- The node `5` is probing its successors when the node `7` fails. -/
def threeProbes : List Probe :=
  [⟨5, threeEntry 7, .succResult 0⟩, ⟨5, threeEntry 9, .succResult 1⟩]

theorem probesOwn_three :
  three.ProbesOwn threeProbes
  := by
  intro p hp s k hs hcb
  obtain ⟨-, heq⟩ := three_peer hs
  cases heq
  simp only [threeProbes, List.mem_cons, List.not_mem_nil, or_false] at hp
  rcases hp with rfl | rfl
  · injection hcb with hval
    obtain rfl : k = 0 := Fin.ext (Int.natCast_inj.mp hval.symm)
    rfl
  · injection hcb with hval
    obtain rfl : k = 1 := Fin.ext (Int.natCast_inj.mp hval.symm)
    rfl

/-- What is left after the probe of the node `7` has failed. -/
def sevenDropped : Remains where
  net := (three.fail notSeven threeProbes).net.act 5 true []
    (nodeCheckResult (idle (threeNode 5)) (.succResult 0) false)
  probes := [⟨5, threeEntry 9, .succResult 1⟩]

theorem step_sevenDropped :
  Remains.Step (three.fail notSeven threeProbes) sevenDropped
  := by
  have hi : (three.fail notSeven threeProbes).net.peer 5 = some ⟨threeNode 5, true⟩ := rfl
  exact .outcome (p := ⟨5, threeEntry 7, .succResult 0⟩) (List.nil_append _).symm hi

/-- The node `5` finds the node `9`. -/
theorem finds_next_three :
  ∃ peer, sevenDropped.net.peer 5 = some peer ∧ ∃ k : Fin numOfSuccs, k.val + 1 < numOfSuccs
    ∧ peer.node.Alive k ∧ Next { x | notSeven x = true } 5 (peer.node.successor k).id
    ∧ ∀ j < k, peer.node.Alive j →
      (peer.node.successor j).id ∈ three.Joined ∧ notSeven (peer.node.successor j).id = false
  := by
  have hi : sevenDropped.net.peer 5
      = some ⟨(nodeCheckResult (idle (threeNode 5)) (.succResult 0) false).node, true⟩ := rfl
  exact ⟨_, hi, calm_three.finds_next spares_three probesOwn_three (.single step_sevenDropped) hi⟩

/-- The nodes `5` and `9` come to be the ideal ring, and the first entry of `5` stays empty. -/
theorem mended_three :
  ∃ run, run 0 = three.fail notSeven threeProbes ∧ Remains.Fair run
    ∧ ∃ T, ∀ n ≥ T, (run n).net.Joined = { x | notSeven x = true } ∧ (run n).net.Ideal
      ∧ ∀ s, (run n).net.peer 5 = some ⟨s, true⟩ → nodeFirstAliveSucc s = 1
  := by
  obtain ⟨run, hzero, hfair⟩ := calm_three.exists_fair spares_three probesOwn_three
  obtain ⟨T, hT⟩ := calm_three.mended spares_three probesOwn_three hfair hzero
  refine ⟨run, hzero, hfair, T, ?_⟩
  intro n hn
  obtain ⟨hjoined, hideal, hfirst⟩ := hT n hn
  refine ⟨hjoined, hideal, ?_⟩
  intro s hs
  apply hfirst 5 s (threeNode 5) 1 hs rfl rfl
  intro j hj
  obtain rfl : j = 0 := Fin.ext (Nat.lt_one_iff.mp (Fin.lt_def.mp hj))
  rfl

end Net
