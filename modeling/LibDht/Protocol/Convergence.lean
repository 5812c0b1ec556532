import LibDht.Node.Notify
import LibDht.Node.Stabilise
import LibDht.Protocol.Fair

/-!
# Fair runs come to the ideal ring

A network is parted when no node is its own first successor, and no node is on the way to
notify itself; it stays so. In a run of a parted network the first successor of a node never
gets farther, and neither does its predecessor. There are finitely many identifiers, so that
in the end nobody joins any more and nothing of this changes. In a fair run a network in which
nothing of this changes is the ideal ring, as every node completes stabilisations.

A network that is not parted need not get there. The own notification of a node that is its
own first successor is adopted over any predecessor, and as long as such notifications come
at the wrong time the node does not learn of another.
-/

open Circle Filter Function

/-! ### What changes at a node -/

section Change

variable {c i : HashType} {msgs : List Msg} {s s' : NodeSelf}

/-- The first successor stays, or what a reply told the node is adopted. -/
theorem Change.firstSucc (h : Change msgs i s s') (halive : s.Alive 0) :
  s'.firstSucc = s.firstSucc
    ∨ ∃ n hops, .predReply n hops ⟨i, .stabilizeSpFound⟩ ∈ msgs ∧ Adopts s n ∧ s' = adopted s n
  := by
  cases h with
  | kept => exact Or.inl rfl
  | @entry n hops k hk hm =>
    left
    have hzero : ({ s with successor := update s.successor k n } : NodeSelf).successor 0
        = s.successor 0 := update_of_ne (Ne.symm hk) _ _
    rw [firstSucc_of_alive_zero halive, firstSucc_of_alive_zero, hzero]
    rw [NodeSelf.Alive, hzero]
    exact halive
  | finger hm => exact Or.inl (firstSucc_congr rfl rfl)
  | fixFingers =>
    obtain ⟨fingers, hnode⟩ := (fixesFingers s).node
    rw [hnode]
    exact Or.inl (firstSucc_congr rfl rfl)
  | @adopt n hops hm =>
    by_cases hadopts : Adopts s n
    · exact Or.inr ⟨n, hops, hm, hadopts, rfl⟩
    · rw [adopted, if_neg hadopts]
      exact Or.inl rfl
  | notify hip hm => exact Or.inl (nodeNotified_firstSucc s _)

/-- The predecessor stays, or the node has been notified. -/
theorem Change.predecessor (h : Change msgs i s s') :
  s'.predecessor = s.predecessor ∧ s'.hasPred = s.hasPred
    ∨ ∃ n port, .notify i n.id port ∈ msgs ∧ s' = nodeNotified s n
  := by
  cases h with
  | kept => exact Or.inl ⟨rfl, rfl⟩
  | entry hk hm => exact Or.inl ⟨rfl, rfl⟩
  | finger hm => exact Or.inl ⟨rfl, rfl⟩
  | fixFingers =>
    obtain ⟨fingers, hnode⟩ := (fixesFingers s).node
    rw [hnode]
    exact Or.inl ⟨rfl, rfl⟩
  | adopt hm => exact Or.inl ⟨(adopted_rest s _).1, (adopted_rest s _).2.1⟩
  | notify hip hm => exact Or.inr ⟨_, _, hm, rfl⟩

end Change

namespace Net

variable {c : HashType} {net net' : Net}

/-- The entry `0` is the first successor when it is in use. -/
theorem setSuccessor_zero_firstSucc (s : NodeSelf) {n : NodeInfo} (hn : n.IP ≠ 0) :
  (s.setSuccessor 0 n).firstSucc = n
  := by
  have hat : (s.setSuccessor 0 n).successor 0 = n := by simp
  rw [firstSucc_of_alive_zero, hat]
  rw [NodeSelf.Alive, hat]
  exact hn

/-! ### Parted networks -/

/-- No joined node is its own first successor, and no node is on the way to notify itself. -/
structure Parted (net : Net) : Prop where
  succ : ∀ {i s}, net.peer i = some ⟨s, true⟩ → s.firstSucc.id ≠ i
  notify : ∀ {i id port}, .notify i id port ∈ net.msgs → id ≠ i

/-- A node that has another first successor does not adopt itself. -/
theorem adopted_firstSucc_ne {s : NodeSelf} {n : NodeInfo} (hn : n = nullNode ∨ n.IP ≠ 0)
    (hs : s.firstSucc.id ≠ s.self.id) :
  (adopted s n).firstSucc.id ≠ s.self.id
  := by
  by_cases hadopts : Adopts s n
  · obtain ⟨hsome, hwhere⟩ := adopts_iff.mp hadopts
    have hIP : n.IP ≠ 0 := by
      apply hn.resolve_left
      rintro rfl
      simp [nullNode] at hsome
    rw [adopted_firstSucc_of_adopts hIP hadopts]
    exact (hwhere.resolve_left (Ne.symm hs)).1
  · rw [adopted, if_neg hadopts]
    exact hs

/-- What an answer to a stabilisation names. -/
theorem Invariant.predReply_IP (h : Invariant c net) {n : NodeInfo} {hops : Int16} {f : Frame}
    (hm : .predReply n hops f ∈ net.msgs) :
  n = nullNode ∨ n.IP ≠ 0
  := (h.msg _ hm).2.2.imp_right Known.IP_ne

theorem Invariant.alive_zero (h : Invariant c net) {i : HashType} {s : NodeSelf}
    (hi : net.peer i = some ⟨s, true⟩) :
  s.Alive 0
  := (h.running hi).alive_zero

/-- A parted network stays parted. -/
theorem Turn.parted (ht : Turn net net') (h : Invariant c net) (hp : Parted net) :
  Parted net'
  := by
  constructor
  · intro i s' hi'
    rcases ht.joined_before hi' with ⟨s, hi⟩ | ⟨s, n, hops, arg, hm, rfl⟩
    · obtain ⟨s'', hi'', hchange⟩ := ht.change hi
      rw [hi'] at hi''
      cases hi''
      have hself : s.self.id = i := (h.peer hi).self_id
      rcases hchange.firstSucc (h.alive_zero hi) with heq | ⟨n, hops, hm, -, rfl⟩
      · rw [heq]
        exact hp.succ hi
      · rw [← hself]
        exact adopted_firstSucc_ne (h.predReply_IP hm) (hself ▸ hp.succ hi)
    · -- the node was looked for by one that had not joined
      have hknown : Known net.Joined n := (h.msg _ hm).1
      rw [setSuccessor_zero_firstSucc s hknown.IP_ne]
      rintro rfl
      exact h.not_mem_of_joiner hm rfl hknown.id_mem
  · intro i id port hm
    rcases ht.brings hm with hm | hbrings
    · exact hp.notify hm
    · cases hbrings with
      | @received j m' peer peer' hm' hj hrec =>
        obtain ⟨s, n, hops, rfl, rfl, rfl, rfl⟩ := hrec.notify_out
        have hself : s.self.id = id := (h.peer hj).self_id
        have hne := adopted_firstSucc_ne (h.predReply_IP hm') (hself.symm ▸ hp.succ hj)
        rw [hself] at hne
        exact Ne.symm hne
      | started hj hstart hsent =>
        cases hstart with
        | fixFingers =>
          obtain ⟨dest, k, -, hm⟩ := eq_of_mem_route_fixFingers hsent
          cases hm
        | _ => simp at hsent
      | asked hm => cases hm

/-! ### A stabilisation, message by message -/

section Stabilisation

variable {i dest id : HashType}

theorem Fires.asks (h : Fires .stabilise i net net') :
  ∃ s, net.peer i = some ⟨s, true⟩
    ∧ .predRequest s.firstSucc.id ⟨i, .stabilizeSpFound⟩ ∈ net'.msgs
  := by
  obtain ⟨s, hs, rfl⟩ := h
  exact ⟨s, hs, List.mem_append_right _ List.mem_cons_self⟩

theorem Received.tells {f : Frame} (h : Received (.predRequest dest f) net net') :
  ∃ t hops, net.peer dest = some ⟨t, true⟩ ∧ .predReply (predAnswer t) hops f ∈ net'.msgs
  := by
  obtain ⟨i, peer, peer', out, hi, hrec, -, hout⟩ := h.exists
  cases hrec with
  | @predRequest t _ hops => exact ⟨t, hops, hi, hout _ rfl⟩

theorem Received.adopts {n : NodeInfo} {hops : Int16}
    (h : Received (.predReply n hops ⟨i, .stabilizeSpFound⟩) net net') :
  ∃ s, net.peer i = some ⟨s, true⟩ ∧ net'.peer i = some ⟨adopted s n, true⟩
    ∧ .notify (adopted s n).firstSucc.id i s.self.port ∈ net'.msgs
  := by
  obtain ⟨j, peer, peer', out, hj, hrec, hpeer, hout⟩ := h.exists
  cases hrec with
  | @predReply s => exact ⟨s, hj, by rw [hpeer, update_self], hout _ rfl⟩

theorem Received.notifies {port : UInt16} (h : Received (.notify dest id port) net net') :
  ∃ u n, n.id = id ∧ net.peer dest = some ⟨u, true⟩
    ∧ net'.peer dest = some ⟨nodeNotified u n, true⟩
  := by
  obtain ⟨j, peer, peer', out, hj, hrec, hpeer, -⟩ := h.exists
  cases hrec with
  | @notify u _ _ ip => exact ⟨u, _, rfl, hj, by rw [hpeer, update_self]⟩

end Stabilisation

/-! ### How far the neighbours are -/

/-- How far it is from a joined node to its first successor. -/
def succRank (net : Net) (i : HashType) : ℕ :=
  match net.peer i with
  | some ⟨s, true⟩ => clockwise i s.firstSucc.id
  | _ => UInt32.size

/-- How far it is from the predecessor of a joined node to the node. -/
def predRank (net : Net) (i : HashType) : ℕ :=
  match net.peer i with
  | some ⟨s, true⟩ => if s.hasPred then lap s.predecessor.id i else UInt32.size + 1
  | _ => UInt32.size + 1

section Ranks

variable {i : HashType} {s s' : NodeSelf}

theorem succRank_of_peer (hi : net.peer i = some ⟨s, true⟩) :
  net.succRank i = clockwise i s.firstSucc.id
  := by
  rw [succRank, hi]

theorem predRank_of_peer (hi : net.peer i = some ⟨s, true⟩) :
  net.predRank i = if s.hasPred then lap s.predecessor.id i else UInt32.size + 1
  := by
  rw [predRank, hi]

theorem ranks_of_not_mem (hi : i ∉ net.Joined) :
  net.succRank i = UInt32.size ∧ net.predRank i = UInt32.size + 1
  := by
  rw [succRank, predRank]
  cases hpeer : net.peer i with
  | none => exact ⟨rfl, rfl⟩
  | some peer =>
    obtain ⟨s, b⟩ := peer
    cases b with
    | true => exact absurd ⟨s, hpeer⟩ hi
    | false => exact ⟨rfl, rfl⟩

theorem mem_joined_iff_succRank_lt :
  i ∈ net.Joined ↔ net.succRank i < UInt32.size
  := by
  constructor
  · rintro ⟨s, hs⟩
    rw [succRank_of_peer hs]
    exact clockwise_lt _ _
  · intro hlt
    by_contra hi
    rw [(ranks_of_not_mem hi).1] at hlt
    exact lt_irrefl _ hlt

theorem predRank_le (net : Net) (i : HashType) :
  net.predRank i ≤ UInt32.size + 1
  := by
  by_cases hi : i ∈ net.Joined
  · obtain ⟨s, hs⟩ := hi
    rw [predRank_of_peer hs]
    have hle := lap_le s.predecessor.id i
    split_ifs <;> omega
  · exact (ranks_of_not_mem hi).2.le

/-- In a parted network the first successor of a node does not get farther. -/
theorem Turn.succRank_le (ht : Turn net net') (h : Invariant c net) (hp : Parted net)
    (i : HashType) :
  net'.succRank i ≤ net.succRank i
  := by
  by_cases hi : i ∈ net.Joined
  · obtain ⟨s, hs⟩ := hi
    obtain ⟨s', hs', hchange⟩ := ht.change hs
    have hself : s.self.id = i := (h.peer hs).self_id
    rw [succRank_of_peer hs, succRank_of_peer hs']
    rcases hchange.firstSucc (h.alive_zero hs) with heq | ⟨n, hops, hm, hadopts, rfl⟩
    · rw [heq]
    · obtain ⟨hsome, hwhere⟩ := adopts_iff.mp hadopts
      have hIP : n.IP ≠ 0 := by
        apply (h.predReply_IP hm).resolve_left
        rintro rfl
        simp [nullNode] at hsome
      rw [adopted_firstSucc_of_adopts hIP hadopts, ← hself]
      exact (hwhere.resolve_left fun heq => hp.succ hs (heq.symm.trans hself)).2
  · rw [(ranks_of_not_mem hi).1]
    by_cases hi' : i ∈ net'.Joined
    · exact (mem_joined_iff_succRank_lt.mp hi').le
    · exact (ranks_of_not_mem hi').1.le

/-- In a parted network the predecessor of a node does not get farther. -/
theorem Turn.predRank_le (ht : Turn net net') (h : Invariant c net) (hp : Parted net)
    (i : HashType) :
  net'.predRank i ≤ net.predRank i
  := by
  by_cases hi : i ∈ net.Joined
  · obtain ⟨s, hs⟩ := hi
    obtain ⟨s', hs', hchange⟩ := ht.change hs
    have hself : s.self.id = i := (h.peer hs).self_id
    rcases hchange.predecessor with ⟨hpred, hhas⟩ | ⟨n, port, hm, rfl⟩
    · rw [predRank_of_peer hs, predRank_of_peer hs', hpred, hhas]
    · cases hhas : s.hasPred with
      | false =>
        rw [predRank_of_peer hs, hhas]
        exact Net.predRank_le net' i
      | true =>
        have hnotified := nodeNotified_predecessor hhas n
        rw [predRank_of_peer hs, predRank_of_peer hs', hnotified, nodeNotified_hasPred, hhas,
          hself]
        simp only [if_true]
        split_ifs with hcloser
        · exact hcloser.resolve_left (hp.notify hm)
        · exact le_rfl
  · rw [(ranks_of_not_mem hi).2]
    exact Net.predRank_le net' i

end Ranks

/-! ### In the end nothing changes -/

/-- From the state `T` on nobody joins, and no node gets another first successor or another
predecessor. -/
structure Resting (run : ℕ → Net) (T : ℕ) : Prop where
  succ : ∀ n ≥ T, ∀ i, (run n).succRank i = (run T).succRank i
  pred : ∀ n ≥ T, ∀ i, (run n).predRank i = (run T).predRank i

section Run

variable {run : ℕ → Net} {T : ℕ}

theorem exists_resting (h : Fair run) (hinv : ∀ n, Invariant c (run n))
    (hparted : ∃ n, Parted (run n)) :
  ∃ T, Resting run T
  := by
  obtain ⟨n₀, hn₀⟩ := hparted
  have hp : ∀ n ≥ n₀, Parted (run n) := by
    intro n hn
    induction n, hn using Nat.le_induction with
    | base => exact hn₀
    | succ n _ ih =>
      rcases h.turn hinv n with heq | ht
      · rw [heq]
        exact ih
      · exact ht.parted (hinv n) ih
  have hsucc : ∀ i, ∀ᶠ n in atTop, (run (n + 1)).succRank i ≤ (run n).succRank i := by
    intro i
    rw [eventually_atTop]
    use n₀
    intro n hn
    rcases h.turn hinv n with heq | ht
    · rw [heq]
    · exact ht.succRank_le (hinv n) (hp n hn) i
  have hpred : ∀ i, ∀ᶠ n in atTop, (run (n + 1)).predRank i ≤ (run n).predRank i := by
    intro i
    rw [eventually_atTop]
    use n₀
    intro n hn
    rcases h.turn hinv n with heq | ht
    · rw [heq]
    · exact ht.predRank_le (hinv n) (hp n hn) i
  obtain ⟨v, hv⟩ := Ultimately.const_of_forall_step_le (f := fun i n => (run n).succRank i) hsucc
  obtain ⟨w, hw⟩ := Ultimately.const_of_forall_step_le (f := fun i n => (run n).predRank i) hpred
  obtain ⟨T, hT⟩ := eventually_atTop.mp (hv.and hw)
  use T
  constructor
  · intro n hn i
    rw [(hT n hn).1 i, (hT T le_rfl).1 i]
  · intro n hn i
    rw [(hT n hn).2 i, (hT T le_rfl).2 i]

namespace Resting

variable {n m : ℕ} {i : HashType} {s t : NodeSelf}

theorem joined (h : Resting run T) (hn : T ≤ n) :
  (run n).Joined = (run T).Joined
  := by
  ext i
  rw [mem_joined_iff_succRank_lt, mem_joined_iff_succRank_lt, h.succ n hn]

theorem firstSucc (h : Resting run T) (hn : T ≤ n) (hm : T ≤ m)
    (hs : (run n).peer i = some ⟨s, true⟩) (ht : (run m).peer i = some ⟨t, true⟩) :
  t.firstSucc.id = s.firstSucc.id
  := by
  apply clockwise_injective i
  rw [← succRank_of_peer hs, ← succRank_of_peer ht, h.succ n hn, h.succ m hm]

theorem predecessor (h : Resting run T) (hn : T ≤ n) (hm : T ≤ m)
    (hs : (run n).peer i = some ⟨s, true⟩) (ht : (run m).peer i = some ⟨t, true⟩)
    (hhas : s.hasPred = true) :
  t.hasPred = true ∧ t.predecessor.id = s.predecessor.id
  := by
  have heq : (run m).predRank i = (run n).predRank i := by rw [h.pred n hn, h.pred m hm]
  rw [predRank_of_peer hs, predRank_of_peer ht, hhas] at heq
  simp only [if_true] at heq
  have hle := lap_le s.predecessor.id i
  split_ifs at heq with hhas'
  · exact ⟨hhas', lap_injective i heq⟩
  · omega

end Resting

/-! ### The ideal ring -/

/-- When nothing changes any more, the predecessor of the first successor of a node is the
node. -/
theorem Resting.pred_of_next (hrest : Resting run T) (h : Fair run)
    (hinv : ∀ n, Invariant c (run n)) {n : ℕ} (hn : T ≤ n) {i : HashType} {s t : NodeSelf}
    (hs : (run n).peer i = some ⟨s, true⟩) (ht : (run n).peer s.firstSucc.id = some ⟨t, true⟩) :
  t.hasPred = true ∧ t.predecessor.id = i
  := by
  -- the node stabilises: it asks its first successor,
  obtain ⟨k₀, hk₀, hfires⟩ := h.timer .stabilise ⟨s, hs⟩
  obtain ⟨s₀, hs₀, hasked⟩ := hfires.asks
  rw [hrest.firstSucc hn (by omega) hs hs₀] at hasked
  -- which tells it its predecessor,
  obtain ⟨k₁, hk₁, harr₁⟩ := h.received hinv hasked not_false
  obtain ⟨t₁, hops, ht₁, htold⟩ := harr₁.tells
  -- which it adopts or not,
  obtain ⟨k₂, hk₂, harr₂⟩ := h.received hinv htold not_false
  obtain ⟨s₂, hs₂, hs₂', hnotify⟩ := harr₂.adopts
  have hkept := hrest.firstSucc (show T ≤ k₂ by omega) (by omega) hs₂ hs₂'
  rw [hkept, hrest.firstSucc hn (by omega) hs hs₂] at hnotify
  -- and the first successor is notified
  obtain ⟨k₃, hk₃, harr₃⟩ := h.received hinv hnotify not_false
  obtain ⟨u, n', hid, hu, hu'⟩ := harr₃.notifies
  have hself : s₂.self.id = i := ((hinv k₂).peer hs₂).self_id
  have hother : u.self.id = s.firstSucc.id := ((hinv k₃).peer hu).self_id
  obtain ⟨hhas, hpred⟩ := hrest.predecessor (show T ≤ k₃ + 1 by omega) (show T ≤ k₃ by omega) hu' hu
    (nodeNotified_hasPred u n')
  obtain ⟨-, hcases⟩ := nodeNotified_unchanged hpred.symm (by rw [nodeNotified_hasPred, hhas])
  obtain ⟨hhas', hpred'⟩ := hrest.predecessor (show T ≤ k₃ by omega) hn hu ht hhas
  use hhas'
  rw [hpred', ← hid]
  apply hcases.resolve_right
  rintro ⟨hbetween, hne⟩
  -- the answer was the predecessor, and it was not adopted
  obtain ⟨hhas₁, hpred₁⟩ :=
    hrest.predecessor (show T ≤ k₃ by omega) (show T ≤ k₁ by omega) hu ht₁ hhas
  have hanswer : predAnswer t₁ = t₁.predecessor := by
    rw [predAnswer, if_pos hhas₁]
  rw [hanswer] at hkept
  have hIP := (((hinv k₁).peer ht₁).pred hhas₁).IP_ne
  have hfirst := hrest.firstSucc hn (show T ≤ k₂ by omega) hs hs₂
  have hle := clockwise_le_of_not_adopted hIP (by rw [hpred₁, hfirst, ← hother]; exact hne) hkept
  apply hbetween
  rw [hid, hother, ← hpred₁, ← hself, ← hfirst]
  exact hle

end Run

/-- The first successor of every joined node is the next one clockwise, and its predecessor the
previous one. -/
def Ideal (net : Net) : Prop :=
  ∀ i s, net.peer i = some ⟨s, true⟩ → Next net.Joined i s.firstSucc.id
    ∧ s.hasPred = true ∧ Previous net.Joined i s.predecessor.id

/-- A network in which every node is the predecessor of its first successor is the ideal
ring. -/
theorem Invariant.ideal (h : Invariant c net)
    (hpred : ∀ i s t, net.peer i = some ⟨s, true⟩ → net.peer s.firstSucc.id = some ⟨t, true⟩ →
      t.hasPred = true ∧ t.predecessor.id = i) :
  net.Ideal
  := by
  have hinj := next_injOn h fun i s t hs ht => (hpred i s t hs ht).2
  intro i s hs
  have hmem : i ∈ net.Joined := ⟨s, hs⟩
  constructor
  · rw [← next_of_peer hs]
    exact h.climbs.next_of_injOn hinj hmem
  · obtain ⟨j, hj, hji⟩ := h.climbs.exists_preimage_of_injOn hinj hmem
    have hnext := h.climbs.next_of_injOn hinj hj
    rw [hji] at hnext
    obtain ⟨r, hr⟩ := hj
    rw [next_of_peer hr] at hji
    obtain ⟨hhas, hid⟩ := hpred j r s hr (hji ▸ hs)
    use hhas
    rw [hid]
    exact hnext.previous ⟨r, hr⟩

section Run

variable {run : ℕ → Net}

/-- A network in which nothing changes any more is the ideal ring. -/
theorem Resting.ideal {T n : ℕ} (hrest : Resting run T) (h : Fair run)
    (hinv : ∀ n, Invariant c (run n)) (hn : T ≤ n) :
  (run n).Ideal
  := by
  apply (hinv n).ideal
  intro i s t hs ht
  exact hrest.pred_of_next h hinv hn hs ht

/-- In a fair run in which the network is parted at some time, in whatever order messages
arrive and timers fire and nodes join, there comes a time from which on nobody joins and the
network is the ideal ring. -/
theorem Fair.becomes_ideal (h : Fair run) (h₀ : Reachable c (run 0)) (hparted : ∃ n, Parted (run n)) :
  ∃ T, ∀ n ≥ T, (run n).Joined = (run T).Joined ∧ (run n).Ideal
  := by
  have hinv := h₀.invariant_run h
  obtain ⟨T, hrest⟩ := exists_resting h hinv hparted
  use T
  intro n hn
  use hrest.joined hn
  exact hrest.ideal h hinv hn

end Run

theorem parted_third :
  Parted third
  := by
  have hnotify : third.msgs = [.succRequest 5 7 [⟨7, .networkJoinSuccFound 0⟩]] := by
    decide +kernel
  have hnext : ∀ i, i = 5 ∨ i = 9 →
      (third.peer i).map (fun peer => decide (peer.node.firstSucc.id = i)) = some false := by
    rintro i (rfl | rfl) <;> decide +kernel
  constructor
  · intro i s hs heq
    have hi : i = 5 ∨ i = 9 := by
      have hpeer := hs
      simp only [third, act] at hpeer
      by_cases h7 : i = 7
      · rw [h7, update_self] at hpeer
        cases hpeer
      · rw [update_of_ne h7] at hpeer
        apply mem_settled
        rw [hpeer]
        simp
    have hne := hnext i hi
    rw [hs] at hne
    simp [heq] at hne
  · intro i id port hm
    rw [hnotify] at hm
    simp at hm

/-- After the node `7` has joined, the network comes to the ideal ring. -/
theorem becomes_ideal_third :
  ∃ run, run 0 = third ∧ Fair run
    ∧ ∃ T, ∀ n ≥ T, (run n).Joined = (run T).Joined ∧ (run n).Ideal
  := by
  obtain ⟨run, hzero, hfair⟩ := reachable_third.exists_fair
  exact ⟨run, hzero, hfair, hfair.becomes_ideal (hzero ▸ reachable_third) ⟨0, hzero ▸ parted_third⟩⟩

end Net
