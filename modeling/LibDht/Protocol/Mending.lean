import LibDht.Protocol.Failure
import LibDht.Protocol.Settling

/-!
# The ring closes again

In a fair run of what is left of a network every message for a node that runs, and that does not
crash it, arrives, every probe comes to its result, and every timer of every running node fires
again and again.

What was sent before the failure arrives, and is used up. Then nobody is told of failed nodes
any more but by those that still know of them, and these probe them: a failed predecessor is
dropped, and so are the failed nodes before the next one that runs. Then the first successor
of every node is the next one that runs, and as it is notified again and again it takes the
node as its predecessor: the nodes that are left form the ideal ring.
-/

open Circle Filter Function

deriving instance Countable for CheckCb
deriving instance Countable for Probe

instance : Finite Check := by
  apply Set.finite_univ_iff.mp
  apply Set.Finite.subset (Set.toFinite {.succs, .pred})
  intro t _
  cases t with
  | succs => simp
  | pred => simp

namespace Remains

variable {V : Survivors} {w w' : Remains} {i : HashType} {s : NodeSelf}

/-! ### Fair runs -/

/-- A message arrives at a process that runs, or a probe comes to its result. -/
inductive Arrives : Msg ⊕ Probe → Remains → Remains → Prop where
  | msg {w : Remains} {m : Msg} {net' : Net} (h : Net.Arrives m w.net net') :
      Arrives (.inl m) w { w with net := net' }
  | probe {w : Remains} {p : Probe} {s : NodeSelf} {b : Bool} {before after : List Probe}
      (hp : w.probes = before ++ p :: after)
      (hi : w.net.peer p.owner = some { node := s, joined := b }) :
      Arrives (.inr p) w
        { net := w.net.act p.owner b []
            (nodeCheckResult (idle s) p.cb (w.net.peer p.dest.id).isSome)
          probes := before ++ after }

/-- A timer of the node `i` fires. -/
inductive Fires (i : HashType) : Timer ⊕ Check → Remains → Remains → Prop where
  | timer {w : Remains} {t : Timer} {net' : Net} (h : Net.Fires t i w.net net') :
      Fires i (.inl t) w { w with net := net' }
  | check {w : Remains} {s : NodeSelf} (t : Check)
      (hi : w.net.peer i = some { node := s, joined := true }) :
      Fires i (.inr t) w
        { net := w.net.act i true [] (t.fire (idle s))
          probes := w.probes ++ probed i (t.fire (idle s)) }

/-- What is still to come: the messages for processes that run, and the results of probes. -/
def queue (w : Remains) : List (Msg ⊕ Probe) :=
  (w.net.msgs.filter fun m => (m.receiver.bind w.net.peer).isSome).map .inl ++ w.probes.map .inr

/-- What is left of a network as a system. -/
def system : System Remains (Msg ⊕ Probe) ((Timer ⊕ Check) × HashType) where
  step := Step
  queue := queue
  arrives := Arrives
  enabled t w := t.2 ∈ w.net.Joined
  fires t := Fires t.2 t.1

/-- A run in which every message for a process that runs, and that does not crash it, arrives,
every probe comes to its result, and every timer of a running node fires again and again. -/
abbrev Fair (run : ℕ → Remains) : Prop :=
  system.Fair run

theorem inl_mem_queue {m : Msg} :
  .inl m ∈ w.queue ↔ m ∈ w.net.msgs ∧ ∃ i peer, m.receiver = some i ∧ w.net.peer i = some peer
  := by
  have hsome : (m.receiver.bind w.net.peer).isSome
      ↔ ∃ i peer, m.receiver = some i ∧ w.net.peer i = some peer := by
    cases m.receiver with
    | none => simp
    | some i => simp [Option.isSome_iff_exists]
  simp [queue, hsome]

theorem inr_mem_queue {p : Probe} :
  .inr p ∈ w.queue ↔ p ∈ w.probes
  := by
  simp [queue]

/-- Nobody starts to run when a message arrives. -/
theorem peer_of_arrives {m : Msg} {net net' : Net} (h : Net.Arrives m net net') {i : HashType}
    (hi : net.peer i = none) :
  net'.peer i = none
  := by
  have hact : ∀ {j peer b msgs frames p}, net.peer j = some peer →
      ({ net with msgs := msgs }.act j b frames p).peer i = none := by
    intro j peer b msgs frames p hj
    have hne : i ≠ j := by
      rintro rfl
      rw [hi] at hj
      cases hj
    exact (update_of_ne hne _ _).trans hi
  cases h with
  | succRequest hm hd hne => exact hact hd
  | succReply hm hd => exact hact hd
  | predRequest hops hm hd => exact hi
  | predReply hm hd => exact hact hd
  | notify ip hip hm hd => exact hact hd

theorem peer_of_act {net : Net} {p : Process Outbox} {b : Bool} {peer : Peer}
    (hi : net.peer i = some peer) {j : HashType} (hj : net.peer j = none) :
  (net.act i b [] p).peer j = none
  := by
  have hne : j ≠ i := by
    rintro rfl
    rw [hj] at hi
    cases hi
  exact (update_of_ne hne _ _).trans hj

theorem Arrives.net {m : Msg} (h : Arrives (.inl m) w w') :
  Net.Arrives m w.net w'.net
  := by
  cases h with
  | msg h => exact h

/-- A probe of a node that has failed fails. -/
theorem Arrives.fails {p : Probe} (h : Arrives (.inr p) w w') (hd : w.net.peer p.dest.id = none) :
  ∃ s b, w'.net.peer p.owner = some ⟨(nodeCheckResult (idle s) p.cb false).node, b⟩
  := by
  cases h with
  | @probe _ _ s b before after hp hi =>
    refine ⟨s, b, (update_self ..).trans ?_⟩
    rw [hd]
    rfl

theorem Fires.net {t : Timer} (h : Fires i (.inl t) w w') :
  Net.Fires t i w.net w'.net
  := by
  cases h with
  | timer h => exact h

/-- A node probes when the timer fires. -/
theorem Fires.probes {t : Check} (h : Fires i (.inr t) w w') :
  ∃ s, w.net.peer i = some ⟨s, true⟩ ∧ ∀ p ∈ probed i (t.fire (idle s)), p ∈ w'.probes
  := by
  cases h with
  | check t hi => exact ⟨_, hi, fun p hp => List.mem_append_right _ hp⟩

theorem Arrives.step {x : Msg ⊕ Probe} (h : Arrives x w w') :
  Step w w'
  := by
  cases h with
  | msg h => exact .net h.step fun i hi => peer_of_arrives h hi
  | probe hp hi => exact .outcome hp hi

theorem Fires.step {t : Timer ⊕ Check} (h : Fires i t w w') :
  Step w w'
  := by
  cases h with
  | timer h =>
    apply Step.net h.step
    obtain ⟨s, hs, rfl⟩ := h
    exact fun j hj => peer_of_act hs hj
  | check t hi => exact .check t hi

end Remains

namespace Survivors.Intact

open Remains

variable {V : Survivors} {w w' : Remains} {i : HashType} {s : NodeSelf}

/-- The processes are those of the running nodes. -/
theorem mem_running_iff (h : V.Intact w) :
  i ∈ V.running ↔ ∃ peer, w.net.peer i = some peer
  := by
  constructor
  · intro hi
    obtain ⟨s, hs⟩ := h.running hi
    exact ⟨_, hs⟩
  · rintro ⟨peer, hi⟩
    exact (h.peer hi).1

/-- What is still to come stays so when nothing of it is taken away. -/
theorem mem_queue (h : V.Intact w) (h' : V.Intact w') {x : Msg ⊕ Probe} (hx : x ∈ w.queue)
    (hmsg : ∀ m, x = .inl m → m ∈ w'.net.msgs) (hprobe : ∀ p, x = .inr p → p ∈ w'.probes) :
  x ∈ w'.queue
  := by
  cases x with
  | inl m =>
    obtain ⟨-, j, peer, hr, hj⟩ := inl_mem_queue.mp hx
    obtain ⟨peer', hj'⟩ := h'.mem_running_iff.mp (h.peer hj).1
    exact inl_mem_queue.mpr ⟨hmsg m rfl, j, peer', hr, hj'⟩
  | inr p => exact inr_mem_queue.mpr (hprobe p rfl)

end Survivors.Intact

namespace Remains

/-- There are fair runs of what is left of a network. -/
theorem serviceable (V : Survivors) :
  system.Serviceable V.Intact
  where
    keeps _ _ h hs := h.step hs
    step_of_arrives _ _ _ h := h.step
    step_of_fires _ _ _ h := h.step
    arrive w x h hx := by
      cases x with
      | inl m =>
        obtain ⟨hm, i, peer, hr, hi⟩ := inl_mem_queue.mp hx
        obtain ⟨net', harr, hstays⟩ := Net.exists_arrives hm hr hi
        have harr' := Arrives.msg (w := w) harr
        refine ⟨_, harr', ?_⟩
        intro x hx hne
        apply h.mem_queue (h.step harr'.step) hx
        · rintro m' rfl
          exact hstays m' (inl_mem_queue.mp hx).1 fun heq => hne (congrArg Sum.inl heq)
        · rintro p rfl
          exact inr_mem_queue (w := w).mp hx
      | inr p =>
        have hp := inr_mem_queue.mp hx
        obtain ⟨before, after, hsplit⟩ := List.append_of_mem hp
        obtain ⟨s, hs⟩ := h.running (h.probe p hp).1
        have harr := Arrives.probe hsplit hs
        refine ⟨_, harr, ?_⟩
        intro x hx hne
        apply h.mem_queue (h.step harr.step) hx
        · rintro m rfl
          exact List.mem_append_left _ (inl_mem_queue.mp hx).1
        · rintro p' rfl
          have hp' := inr_mem_queue.mp hx
          have hpp : p' ≠ p := fun heq => hne (congrArg Sum.inr heq)
          rw [hsplit] at hp'
          simpa [hpp] using hp'
    fire w t h ht := by
      obtain ⟨t, i⟩ := t
      obtain ⟨s, hs⟩ := ht
      obtain ⟨w', hfires, hmsgs, hprobes⟩ : ∃ w', Fires i t w w' ∧ w.net.msgs ⊆ w'.net.msgs
          ∧ w.probes ⊆ w'.probes := by
        cases t with
        | inl t =>
          exact ⟨_, .timer ⟨s, hs, rfl⟩, List.subset_append_left _ _, List.Subset.refl _⟩
        | inr t =>
          exact ⟨_, .check t hs, List.subset_append_left _ _, List.subset_append_left _ _⟩
      refine ⟨w', hfires, ?_⟩
      intro x hx
      apply h.mem_queue (h.step hfires.step) hx
      · rintro m rfl
        exact hmsgs (inl_mem_queue.mp hx).1
      · rintro p rfl
        exact hprobes (inr_mem_queue.mp hx)
    stays w w' t h hs ht := by
      have hmem : t.2 ∈ w.net.Joined := ht
      have hmem' : t.2 ∈ w'.net.Joined := by
        rw [(h.step hs).joined, ← h.joined]
        exact hmem
      exact hmem'

end Remains

/-! ### What a step does -/

/-- What a step may do to the state of a running node. -/
inductive Remains.Becomes (w : Remains) (i : HashType) (s : NodeSelf) : NodeSelf → Prop where
  | change {s' : NodeSelf} (h : Change w.net.msgs i s s') : Becomes w i s s'
  | failed {p : Probe} (hp : p ∈ w.probes) (hi : p.owner = i) (hd : w.net.peer p.dest.id = none) :
      Becomes w i s (nodeCheckResult (idle s) p.cb false).node

/-- A probe that succeeds changes nothing. -/
theorem nodeCheckResult_success (s : NodeSelf) (cb : CheckCb) :
  (nodeCheckResult (idle s) cb true).node = s
  := by
  cases cb <;> rfl

theorem nodeCheckResult_succResult (s : NodeSelf) (sn : ℤ) :
  (nodeCheckResult (idle s) (.succResult sn) false).node = s.setSuccessor sn nullNode
  := rfl

/-- A notification is adopted, or the predecessor stays. -/
theorem nodeNotified_predecessor_or (s : NodeSelf) (n : NodeInfo) :
  (nodeNotified s n).predecessor = n
    ∨ s.hasPred = true ∧ (nodeNotified s n).predecessor = s.predecessor
  := by
  cases hhas : s.hasPred with
  | false => exact Or.inl (nodeNotified_of_no_pred hhas n)
  | true =>
    rw [nodeNotified_predecessor hhas]
    split_ifs
    · exact Or.inl rfl
    · exact Or.inr ⟨rfl, rfl⟩

namespace Survivors.Intact

open Remains

variable {V : Survivors} {w w' : Remains} {i : HashType} {s : NodeSelf}

/-- The messages in flight change with the turns of the network only. -/
theorem turn_or_msgs (h : V.Intact w) (hs : Remains.Step w w') :
  Net.Turn w.net w'.net ∨ w'.net.msgs = w.net.msgs
  := by
  cases hs with
  | net hs hsame => exact Or.inl (h.turn hs)
  | check t hi => exact Or.inr (by rw [Net.act, t.route_fire, List.append_nil])
  | outcome hp hi => exact Or.inr (by rw [Net.act, route_checkResult, List.append_nil])
  | ended hp => exact Or.inr rfl

/-- The state of a running node after a step. -/
theorem becomes (h : V.Intact w) (hs : Remains.Step w w') (hi : w.net.peer i = some ⟨s, true⟩) :
  ∃ s', w'.net.peer i = some ⟨s', true⟩ ∧ Becomes w i s s'
  := by
  cases hs with
  | net hs hsame =>
    obtain ⟨s', hs', hchange⟩ := (h.turn hs).change hi
    exact ⟨s', hs', .change hchange⟩
  | @check j r t hj =>
    by_cases hij : i = j
    · subst hij
      rw [hi] at hj
      cases hj
      refine ⟨s, (update_self ..).trans ?_, .change .kept⟩
      rw [t.fire_node]
    · exact ⟨s, (update_of_ne hij _ _).trans hi, .change .kept⟩
  | @outcome p r b before after hp hj =>
    by_cases hij : i = p.owner
    · subst hij
      rw [hi] at hj
      cases hj
      have hin : p ∈ w.probes := hp ▸ List.mem_append_right _ List.mem_cons_self
      refine ⟨_, update_self .., ?_⟩
      cases hd : w.net.peer p.dest.id with
      | none => exact .failed hin rfl hd
      | some peer =>
        rw [Option.isSome_some, nodeCheckResult_success]
        exact .change .kept
    · exact ⟨s, (update_of_ne hij _ _).trans hi, .change .kept⟩
  | ended hp => exact ⟨s, hi, .change .kept⟩

end Survivors.Intact

/-! ### What is used up -/

namespace Remains

variable {V : Survivors} {run : ℕ → Remains}

theorem Fair.step_or_eq (h : Fair run) (n : ℕ) :
  run (n + 1) = run n ∨ Step (run n) (run (n + 1))
  := h.step n

theorem Fair.intact (h : Fair run) (h₀ : V.Intact (run 0)) (n : ℕ) :
  V.Intact (run n)
  := h.invariant (fun _ _ hV hs => hV.step hs) h₀ n (Nat.zero_le n)

theorem Fair.received (h : Fair run) (hV : ∀ n, V.Intact (run n)) {n : ℕ} {m : Msg} {i : HashType}
    (hm : m ∈ (run n).net.msgs) (hr : m.receiver = some i) (hi : i ∈ V.running) :
  ∃ k ≥ n, Net.Received m (run k).net (run (k + 1)).net
  := by
  obtain ⟨s, hs⟩ := (hV n).running hi
  obtain ⟨k, hk, harr⟩ := h.arrives n (.inl m) (inl_mem_queue.mpr ⟨hm, i, _, hr, hs⟩)
  exact ⟨k, hk, (Arrives.net harr).received (hV k).orderly⟩

/-- Answers of a kind that wear down are used up, when they are for running nodes. -/
theorem Fair.used_up_msgs (h : Fair run) (hV : ∀ n, V.Intact (run n)) {late : Msg → Prop}
    (hlate : ∀ m, late m → ∃ i ∈ V.running, m.receiver = some i)
    (hw : ∀ᶠ n in atTop, Net.WearsDown (Net.weightOf late) (run n).net) :
  ∀ᶠ n in atTop, ∀ m ∈ (run n).net.msgs, ¬ late m
  := by
  have hzero := h.used_up (fun w => (w.net.msgs.map (Net.weightOf late)).sum)
    (fun x => ∃ m, x = .inl m ∧ late m)
    (by
      apply hw.mono
      intro n hn
      rcases h.step_or_eq n with heq | hs
      · rw [heq]
      · rcases (hV n).turn_or_msgs hs with ht | heq
        · exact hn.turn_le ht
        · rw [heq])
    (by
      apply hw.mono
      rintro n hn x ⟨m, rfl, hm⟩ harr
      have hrec := (Arrives.net harr).received (hV n).orderly
      exact (hn.received_le hrec).2 (Net.weightOf_pos_iff.mpr hm))
    (by
      intro n hsum
      obtain ⟨v, hv, hvpos⟩ := List.sum_pos_iff_exists_pos_nat.mp hsum
      obtain ⟨m, hm, rfl⟩ := List.mem_map.mp hv
      have hml := Net.weightOf_pos_iff.mp hvpos
      obtain ⟨i, hi, hr⟩ := hlate m hml
      obtain ⟨s, hs⟩ := (hV n).running hi
      exact ⟨.inl m, inl_mem_queue.mpr ⟨hm, i, _, hr, hs⟩, m, rfl, hml⟩)
  apply hzero.mono
  intro n hn m hm hml
  have hsum := List.sum_eq_zero_iff_forall_eq_nat.mp hn _ (List.mem_map_of_mem hm)
  exact (Net.weightOf_pos_iff.mpr hml).ne' hsum

/-- What holds of a node in the end, when no step takes it away and it holds again and again. -/
theorem Fair.ultimately (h : Fair run) (hV : ∀ n, V.Intact (run n)) {P : HashType → NodeSelf → Prop}
    (hstep : ∀ᶠ n in atTop, ∀ i s s', (run n).net.peer i = some ⟨s, true⟩ →
      Becomes (run n) i s s' → P i s → P i s')
    (hsome : ∀ i ∈ V.running, ∀ N, ∃ n ≥ N, ∃ s, (run n).net.peer i = some ⟨s, true⟩ ∧ P i s) :
  ∀ᶠ n in atTop, ∀ i s, (run n).net.peer i = some ⟨s, true⟩ → P i s
  := by
  refine Ultimately.forall_of_step (J := V.running)
    (fun n i s => (run n).net.peer i = some ⟨s, true⟩) ?_ ?_ ?_ hsome
  · intro n i s s' hs hs'
    rw [hs] at hs'
    cases hs'
    rfl
  · exact Eventually.of_forall fun n i s hs => (hV n).mem hs
  · apply hstep.mono
    intro n hn i s hs hP
    rcases h.step_or_eq n with heq | hs'
    · rw [heq]
      exact ⟨s, hs, hP⟩
    · obtain ⟨s', hs', hbecomes⟩ := (hV n).becomes hs' hs
      exact ⟨s', hs', hn i s s' hs hbecomes hP⟩

/-! ### What was sent before the failure -/

/-- What tells a running node of a failed one. -/
def LateNotify (V : Survivors) : Msg → Prop
  | .notify dest id _ => dest ∈ V.running ∧ id ∉ V.running
  | _ => False

/-- What answers a running node with a failed one. -/
def LateAnswer (V : Survivors) : Msg → Prop
  | .predReply n _ f => f.owner ∈ V.running ∧ n ≠ nullNode ∧ n.id ∉ V.running
  | _ => False

/-- A reply for one of the entries in which a node finds the next one. -/
def LateEntry (V : Survivors) : Msg → Prop
  | .succReply _ _ frames =>
    (∃ f, frames.head? = some f ∧ f.owner ∈ V.running) ∧ ∃ i k, V.Early frames i k
  | _ => False

section Run

variable {n : ℕ}

/-- In the end nobody is notified of failed nodes. -/
theorem Fair.notifies (h : Fair run) (hV : ∀ n, V.Intact (run n)) :
  ∀ᶠ n in atTop, ∀ dest id port, .notify dest id port ∈ (run n).net.msgs →
    dest ∈ V.running → id ∈ V.running
  := by
  have hlate : ∀ m, LateNotify V m → ∃ i ∈ V.running, m.receiver = some i := by
    intro m hm
    cases m with
    | notify dest id port => exact ⟨dest, hm.1, rfl⟩
    | _ => exact hm.elim
  have hgone := h.used_up_msgs hV hlate (by
    apply Eventually.of_forall
    intro n
    apply Net.wearsDown_answers (fun _ _ _ => not_false) (fun _ _ => not_false)
    intro i m peer peer' out hm hi hr hout
    cases out with
    | notify dest id port =>
      obtain ⟨s, node, hops, -, -, -, rfl⟩ := hr.notify_out
      exact absurd ((hV n).peer hi).1 hout.2
    | _ => exact hout.elim)
  apply hgone.mono
  intro n hn dest id port hm hdest
  by_contra hid
  exact hn _ hm ⟨hdest, hid⟩

/-- A running node probes again and again. -/
theorem Fair.probes (h : Fair run) (hV : ∀ n, V.Intact (run n)) {i : HashType}
    (hi : i ∈ V.running) (t : Check) (N : ℕ) :
  ∃ n ≥ N, ∃ s, (run n).net.peer i = some ⟨s, true⟩
    ∧ ∀ p ∈ probed i (t.fire (idle s)), p ∈ (run (n + 1)).probes
  := by
  have hjoined : i ∈ (run N).net.Joined := by
    rw [(hV N).joined]
    exact hi
  obtain ⟨k, hk, hfires⟩ := h.fires N (.inr t, i) hjoined
  exact ⟨k, hk, Fires.probes hfires⟩

/-- A probe of a node that has failed fails at some later step. -/
theorem Fair.fails (h : Fair run) (hV : ∀ n, V.Intact (run n)) {n : ℕ} {p : Probe}
    (hp : p ∈ (run n).probes) (hd : p.dest.id ∉ V.running) :
  ∃ k ≥ n, ∃ s, (run k).net.peer p.owner
    = some ⟨(nodeCheckResult (idle s) p.cb false).node, true⟩
  := by
  obtain ⟨k, hk, harr⟩ := h.arrives n (.inr p) (inr_mem_queue.mpr hp)
  have hnone : (run k).net.peer p.dest.id = none := by
    by_contra hsome
    exact hd ((hV k).mem_running_iff.mpr (Option.ne_none_iff_exists'.mp hsome))
  obtain ⟨s, b, hs⟩ := Arrives.fails harr hnone
  obtain rfl : b = true := ((hV (k + 1)).peer hs).2.1
  exact ⟨k + 1, Nat.le_succ_of_le hk, s, hs⟩

/-- In the end no running node has a failed predecessor. -/
theorem Fair.predecessors (h : Fair run) (hV : ∀ n, V.Intact (run n)) :
  ∀ᶠ n in atTop, ∀ i s, (run n).net.peer i = some ⟨s, true⟩ → s.hasPred = true →
    s.predecessor.id ∈ V.running
  := by
  refine h.ultimately hV (P := fun _ s => s.hasPred = true → s.predecessor.id ∈ V.running) ?_ ?_
  · apply (h.notifies hV).mono
    intro n hn i s s' hs hbecomes hpred
    cases hbecomes with
    | change hchange =>
      rcases hchange.predecessor with ⟨heq, hhas⟩ | ⟨node, port, hm, rfl⟩
      · rw [heq, hhas]
        exact hpred
      · intro _
        rcases nodeNotified_predecessor_or s node with heq | ⟨hhas, heq⟩
        · rw [heq]
          exact hn i node.id port hm ((hV n).mem hs)
        · rw [heq]
          exact hpred hhas
    | @failed p hp hi hd =>
      cases p.cb with
      | predResult =>
        intro hhas
        cases hhas
      | succResult sn =>
        rw [nodeCheckResult_succResult, (s.setSuccessor_predecessor sn nullNode).1,
          (s.setSuccessor_predecessor sn nullNode).2]
        exact hpred
  · intro i hi N
    obtain ⟨n, hn, s, hs, hprobed⟩ := h.probes hV hi .pred N
    by_cases hpred : s.hasPred = true → s.predecessor.id ∈ V.running
    · exact ⟨n, hn, s, hs, hpred⟩
    · obtain ⟨hhas, hfailed⟩ := Classical.not_imp.mp hpred
      have hp := hprobed _ (mem_probed_pred.mpr ⟨hhas, rfl⟩)
      obtain ⟨k, hk, s', hs'⟩ := h.fails hV hp hfailed
      refine ⟨k, by omega, _, hs', ?_⟩
      intro hhas'
      cases hhas'

/-- In the end nobody is answered with a failed node. -/
theorem Fair.answers (h : Fair run) (hV : ∀ n, V.Intact (run n)) :
  ∀ᶠ n in atTop, ∀ node hops f, .predReply node hops f ∈ (run n).net.msgs →
    f.owner ∈ V.running → node = nullNode ∨ node.id ∈ V.running
  := by
  have hlate : ∀ m, LateAnswer V m → ∃ i ∈ V.running, m.receiver = some i := by
    intro m hm
    cases m with
    | predReply node hops f => exact ⟨f.owner, hm.1, rfl⟩
    | _ => exact hm.elim
  have hgone := h.used_up_msgs hV hlate (by
    apply (h.predecessors hV).mono
    intro n hn
    apply Net.wearsDown_answers (fun _ _ _ => not_false) (fun _ _ => not_false)
    intro i m peer peer' out hm hi hr hout
    cases out with
    | predReply node hops f =>
      obtain ⟨s, rfl, rfl, rfl⟩ := hr.predReply_out
      obtain ⟨-, hsome, hfailed⟩ := hout
      rw [predAnswer] at hsome hfailed
      split_ifs at hsome hfailed with hhas
      · exact absurd (hn i s hi hhas) hfailed
      · exact absurd rfl hsome
    | _ => exact hout.elim)
  apply hgone.mono
  intro n hn node hops f hm hf
  by_contra hnot
  obtain ⟨hsome, hfailed⟩ := not_or.mp hnot
  exact hn _ hm ⟨hf, hsome, hfailed⟩

/-- In the end no entry in which a node finds the next one is looked up any more. -/
theorem Fair.entry_replies (h : Fair run) (hV : ∀ n, V.Intact (run n)) :
  ∀ᶠ n in atTop, ∀ (i : HashType) (k : Fin numOfSuccs) node hops,
    .succReply node hops [⟨i, .updateSuccsFound k.val⟩] ∈ (run n).net.msgs → i ∈ V.running →
      V.slot i < k
  := by
  have hlate : ∀ m, LateEntry V m → ∃ i ∈ V.running, m.receiver = some i := by
    intro m hm
    cases m with
    | succReply node hops frames =>
      obtain ⟨⟨f, hf, howner⟩, -⟩ := hm
      obtain ⟨frames, rfl⟩ := List.head?_eq_some_iff.mp hf
      exact ⟨f.owner, howner, rfl⟩
    | _ => exact hm.elim
  have hgone := h.used_up_msgs hV hlate (by
    apply Eventually.of_forall
    intro n
    apply Net.wearsDown_answers (fun _ _ _ => not_false) (fun _ _ => not_false)
    intro i m peer peer' out hm hi hr hout
    have hrun := ((hV n).peer hi).1
    have hallowed := (hV n).msg m hm
    generalize ho : some out = o at hr
    cases hr with
    | answer hid hans =>
      cases ho
      obtain ⟨-, x, k, hearly⟩ := hout
      exact absurd hrun (hallowed.2 x k hearly)
    | @relayed s node hops f frames =>
      cases ho
      obtain ⟨-, x, k, hearly⟩ := hout
      refine ⟨⟨⟨_, rfl, hrun⟩, x, k, hearly.running, hearly.le, ?_⟩, Nat.lt_succ_self _⟩
      exact List.getLast?_cons_cons.trans hearly.bottom
    | entry hk =>
      split_ifs at ho
      cases ho
      exact hout.elim
    | _ => cases ho <;> exact hout.elim)
  apply hgone.mono
  intro n hn i k node hops hm hi
  by_contra hle
  exact hn _ hm ⟨⟨_, rfl, hi⟩, i, k, hi, not_lt.mp hle, rfl⟩

/-! ### The next node is found -/

/-- In the end the entries in which a node finds the next one are written no more, but for the
failed nodes that are dropped. -/
theorem Fair.entries (h : Fair run) (hV : ∀ n, V.Intact (run n)) :
  ∀ᶠ n in atTop, ∀ i s s', (run n).net.peer i = some ⟨s, true⟩ → Becomes (run n) i s s' →
    ∀ k ≤ V.slot i, s'.successor k = s.successor k ∨ s'.successor k = nullNode
  := by
  apply ((h.answers hV).and (h.entry_replies hV)).mono
  rintro n ⟨hanswers, hreplies⟩ i s s' hs hbecomes k hk
  have hi := (hV n).mem hs
  cases hbecomes with
  | change hchange =>
    left
    cases hchange with
    | kept => rfl
    | @entry node hops j hj hm =>
      apply update_of_ne
      rintro rfl
      exact absurd (hreplies i k node hops hm hi) (not_lt.mpr hk)
    | finger hm => rfl
    | fixFingers =>
      obtain ⟨fingers, hnode⟩ := (fixesFingers s).node
      rw [hnode]
    | @adopt node hops hm =>
      rw [adopted, if_neg]
      intro hadopts
      obtain ⟨-, hn⟩ := (hV n).msg _ hm
      rcases hn with rfl | ⟨-, hmem, hne⟩
      · simp [adopts_iff, nullNode] at hadopts
      · have hlost := (((hV n).knows hs).fits_of_adopts hi hmem (hne hi) hadopts).2
        rcases hanswers node hops _ hm hi with rfl | hrun
        · simp [adopts_iff, nullNode] at hadopts
        · exact hlost.not_running hrun
    | notify hip hm =>
      rw [nodeNotified]
      split_ifs <;> rfl
  | @failed p hp hi hd =>
    cases p.cb with
    | predResult => exact Or.inl rfl
    | succResult sn =>
      rw [nodeCheckResult_succResult, NodeSelf.setSuccessor_successor]
      split_ifs
      · exact Or.inr rfl
      · exact Or.inl rfl

/-- In the end the entries before the one of the next node are empty. -/
theorem Fair.cleared (h : Fair run) (hV : ∀ n, V.Intact (run n)) :
  ∀ᶠ n in atTop, ∀ k i s, (run n).net.peer i = some ⟨s, true⟩ → k < V.slot i → ¬ s.Alive k
  := by
  rw [eventually_all]
  intro k
  refine h.ultimately hV (P := fun i s => k < V.slot i → ¬ s.Alive k) ?_ ?_
  · apply (h.entries hV).mono
    intro n hn i s s' hs hbecomes hdead hk
    rw [NodeSelf.Alive]
    rcases hn i s s' hs hbecomes k hk.le with heq | heq
    · rw [heq]
      exact hdead hk
    · rw [heq]
      exact not_not.mpr rfl
  · intro i hi N
    obtain ⟨n, hn, s, hs, hprobed⟩ := h.probes hV hi .succs N
    by_cases halive : k < V.slot i ∧ s.Alive k
    · have hlost := (((hV n).knows hs).fits k halive.1.le halive.2).resolve_left
        fun heq => halive.1.ne heq.1
      have hp := hprobed _ (mem_probed_succs.mpr ⟨k, halive.2, rfl⟩)
      obtain ⟨m, hm, s', hs'⟩ := h.fails hV hp hlost.2.not_running
      refine ⟨m, by omega, _, hs', ?_⟩
      intro _
      rw [nodeCheckResult_succResult, NodeSelf.setSuccessor_coe, NodeSelf.Alive]
      simp [nullNode]
    · exact ⟨n, hn, s, hs, not_and.mp halive⟩

/-- In the end the first successor of a node is the next one that runs. -/
theorem Fair.firstSucc (h : Fair run) (hV : ∀ n, V.Intact (run n)) :
  ∀ᶠ n in atTop, ∀ i s, (run n).net.peer i = some ⟨s, true⟩ →
    nodeFirstAliveSucc s = (V.slot i).val ∧ s.firstSucc.id = V.next i
  := by
  apply (h.cleared hV).mono
  intro n hn i s hs
  have hknows := (hV n).knows hs
  have hfirst : nodeFirstAliveSucc s = (V.slot i).val :=
    nodeFirstAliveSucc_eq_coe_iff.mpr ⟨hknows.alive, fun k hk => hn k i s hs hk⟩
  refine ⟨hfirst, ?_⟩
  rw [NodeSelf.firstSucc, hfirst, NodeSelf.successorAt_coe]
  rcases hknows.fits _ le_rfl hknows.alive with ⟨-, heq⟩ | ⟨hlt, -⟩
  · exact heq
  · exact absurd rfl hlt.ne

/-! ### The nodes are notified -/

open Classical in
/-- In the end no probe of a predecessor is of a failed node. -/
theorem Fair.pred_probes (h : Fair run) (hV : ∀ n, V.Intact (run n)) :
  ∀ᶠ n in atTop, ∀ p ∈ (run n).probes, p.cb = .predResult → p.dest.id ∈ V.running
  := by
  let failing : Probe → Bool := fun p => decide (p.cb = .predResult ∧ p.dest.id ∉ V.running)
  have hnew : ∀ᶠ n in atTop, ∀ (t : Check) i s, (run n).net.peer i = some ⟨s, true⟩ →
      (probed i (t.fire (idle s))).countP failing = 0 := by
    apply (h.predecessors hV).mono
    intro n hn t i s hs
    rw [List.countP_eq_zero]
    intro p hp hfailing
    obtain ⟨hcb, hd⟩ := of_decide_eq_true hfailing
    cases t with
    | succs =>
      obtain ⟨k, -, rfl⟩ := mem_probed_succs.mp hp
      cases hcb
    | pred =>
      obtain ⟨hhas, rfl⟩ := mem_probed_pred.mp hp
      exact hd (hn i s hs hhas)
  have hzero := h.used_up (fun w => w.probes.countP failing)
    (fun x => ∃ p, x = .inr p ∧ failing p) (by
      apply hnew.mono
      intro n hn
      rcases h.step_or_eq n with heq | hs
      · rw [heq]
      · generalize run n = w at hs hn
        generalize run (n + 1) = w' at hs
        cases hs with
        | net hs hsame => exact le_rfl
        | check t hi =>
          rw [List.countP_append, hn t _ _ hi, Nat.add_zero]
        | outcome hp hi =>
          rw [hp]
          exact ((List.sublist_cons_self _ _).append_left _).countP_le
        | ended hp =>
          rw [hp]
          exact ((List.sublist_cons_self _ _).append_left _).countP_le)
    (by
      apply Eventually.of_forall
      rintro n x ⟨p, rfl, hfailing⟩ harr
      generalize run n = w at harr
      generalize run (n + 1) = w' at harr
      cases harr with
      | probe hp hi =>
        rw [hp]
        simp only [List.countP_append, List.countP_cons, hfailing, if_true]
        omega)
    (by
      intro n hpos
      obtain ⟨p, hp, hfailing⟩ := List.countP_pos_iff.mp hpos
      exact ⟨_, inr_mem_queue.mpr hp, p, rfl, hfailing⟩)
  apply hzero.mono
  intro n hn p hp hcb
  by_contra hd
  exact List.countP_eq_zero.mp hn p hp (decide_eq_true ⟨hcb, hd⟩)

/-- Every running node comes next after one. -/
theorem exists_next_eq (V : Survivors) {j : HashType} (hj : j ∈ V.running) :
  ∃ i ∈ V.running, V.next i = j
  := by
  obtain ⟨i, hi, hnext⟩ := Circle.exists_next_eq hj ⟨_, (V.next_running hj).mem, V.next_ne hj⟩
  exact ⟨i, hi, (V.next_running hi).unique hnext⟩

/-- Some time the next node is notified. -/
theorem Fair.notified (h : Fair run) (hV : ∀ n, V.Intact (run n)) {i : HashType}
    (hi : i ∈ V.running) (N : ℕ) :
  ∃ n ≥ N, ∃ s, (run n).net.peer (V.next i) = some ⟨s, true⟩ ∧ s.hasPred = true
  := by
  obtain ⟨T, hT⟩ := eventually_atTop.mp (h.firstSucc hV)
  have hnext := (V.next_running hi).mem
  -- the node stabilises: it asks the next one,
  have hjoined : i ∈ (run (max N T)).net.Joined := by
    rw [(hV _).joined]
    exact hi
  obtain ⟨k₀, hk₀, hfires⟩ := h.fires (max N T) (.inl .stabilise, i) hjoined
  obtain ⟨s₀, hs₀, hasked⟩ := (Fires.net hfires).asks
  rw [(hT k₀ (by omega) i s₀ hs₀).2] at hasked
  -- which answers,
  obtain ⟨k₁, hk₁, harr₁⟩ := h.received hV hasked rfl hnext
  obtain ⟨t₁, hops, ht₁, htold⟩ := harr₁.tells
  -- and is notified
  obtain ⟨k₂, hk₂, harr₂⟩ := h.received hV htold rfl hi
  obtain ⟨s₂, hs₂, hs₂', hnotify⟩ := harr₂.adopts
  rw [(hT (k₂ + 1) (by omega) i _ hs₂').2] at hnotify
  obtain ⟨k₃, hk₃, harr₃⟩ := h.received hV hnotify rfl hnext
  obtain ⟨u, n', hid, hu, hu'⟩ := harr₃.notifies
  exact ⟨k₃ + 1, by omega, _, hu', nodeNotified_hasPred u n'⟩

/-- In the end every running node has a predecessor. -/
theorem Fair.hasPred (h : Fair run) (hV : ∀ n, V.Intact (run n)) :
  ∀ᶠ n in atTop, ∀ i s, (run n).net.peer i = some ⟨s, true⟩ → s.hasPred = true
  := by
  refine h.ultimately hV (P := fun _ s => s.hasPred = true) ?_ ?_
  · apply (h.pred_probes hV).mono
    intro n hn i s s' hs hbecomes hhas
    cases hbecomes with
    | change hchange =>
      rcases hchange.predecessor with ⟨-, heq⟩ | ⟨node, port, hm, rfl⟩
      · rw [heq]
        exact hhas
      · exact nodeNotified_hasPred s node
    | @failed p hp hi hd =>
      cases hcb : p.cb with
      | predResult =>
        obtain ⟨peer, hpeer⟩ := (hV n).mem_running_iff.mp (hn p hp hcb)
        rw [hd] at hpeer
        cases hpeer
      | succResult sn =>
        rw [nodeCheckResult_succResult, (s.setSuccessor_predecessor sn nullNode).2]
        exact hhas
  · intro i hi N
    obtain ⟨j, hj, rfl⟩ := exists_next_eq V hi
    exact h.notified hV hj N

/-- After failures that leave every running node the next one in its successor array, in
whatever order messages arrive, probes come to their results and timers fire, there comes a
time from which on the nodes that run are the ideal ring. The entries before that of the next
node stay empty. -/
theorem Fair.mends (h : Fair run) (h₀ : V.Intact (run 0)) :
  ∃ T, ∀ n ≥ T, (run n).net.Joined = V.running ∧ (run n).net.Ideal
    ∧ ∀ i s, (run n).net.peer i = some ⟨s, true⟩ → nodeFirstAliveSucc s = (V.slot i).val
  := by
  have hV := h.intact h₀
  obtain ⟨T, hT⟩ := eventually_atTop.mp
    ((h.firstSucc hV).and ((h.predecessors hV).and (h.hasPred hV)))
  use T
  intro n hn
  obtain ⟨hfirst, hpreds, hhas⟩ := hT n hn
  use (hV n).joined
  constructor
  · intro i s hs
    have hpred := hpreds i s hs (hhas i s hs)
    have hnext := (((hV n).knows hs).pred (hhas i s hs)).2.2 hpred
    rw [(hV n).joined, (hfirst i s hs).2]
    use V.next_running ((hV n).mem hs), hhas i s hs
    have hprev := (V.next_running hpred).previous hpred
    rw [hnext] at hprev
    exact hprev
  · intro i s hs
    exact (hfirst i s hs).1

end Run

end Remains
