import LibDht.Node.Adopt
import LibDht.Node.Outbox

/-!
# What stabilisation does to the successor array

A node that is told the predecessor of its first successor writes it to the entry `0` of the
successor array, when it is closer, and to no other entry. The first successor in use
afterwards is not farther than before, unless what was adopted has no address: the rule
takes a node with a port for one, and the search of the array does not.

The entry that was there is overwritten. When the first successor in use was in a later
entry nothing is lost, and what was adopted can be cleared again. When it was in the entry
`0` it is gone, until an update of the array finds it again.
-/

open Circle Function

section

variable {s s' : NodeSelf} {n : NodeInfo}

/-! ### The first entry in use -/

/-- The search looks at which entries are in use, and at nothing else. -/
theorem nodeFirstAliveSucc_congr_alive (h : ∀ k, s'.Alive k ↔ s.Alive k) :
  nodeFirstAliveSucc s' = nodeFirstAliveSucc s
  := by
  rcases nodeFirstAliveSucc_cases s with ⟨hnone, hdead⟩ | ⟨k, hk, -⟩
  · rw [hnone, nodeFirstAliveSucc_eq_neg_one_iff]
    exact fun k hk => hdead k ((h k).mp hk)
  · rw [hk]
    apply nodeFirstAliveSucc_eq_coe_iff.mpr
    obtain ⟨halive, hdead⟩ := nodeFirstAliveSucc_eq_coe_iff.mp hk
    exact ⟨(h k).mpr halive, fun j hj hj' => hdead j hj ((h j).mp hj')⟩

/-- As long as the entry `0` is not in use, the first successor is in the other entries. -/
theorem firstSucc_of_dead_zero (hzero : ¬ s.Alive 0) (hzero' : ¬ s'.Alive 0)
    (hrest : ∀ k ≠ 0, s'.successor k = s.successor k) (hout : s'.outside = s.outside) :
  nodeFirstAliveSucc s' = nodeFirstAliveSucc s ∧ s'.firstSucc = s.firstSucc
  := by
  have halive : ∀ k, s'.Alive k ↔ s.Alive k := by
    intro k
    by_cases hk : k = 0
    · rw [hk]
      exact iff_of_false hzero' hzero
    · rw [NodeSelf.Alive, hrest k hk, NodeSelf.Alive]
  have hfirst := nodeFirstAliveSucc_congr_alive halive
  use hfirst
  rw [NodeSelf.firstSucc, hfirst, NodeSelf.firstSucc]
  rcases nodeFirstAliveSucc_cases s with ⟨hnone, -⟩ | ⟨k, hk, hkalive⟩
  · rw [hnone]
    exact congrFun hout (-1)
  · have hk₀ : k ≠ 0 := by
      rintro rfl
      exact hzero hkalive
    rw [hk, NodeSelf.successorAt_coe, NodeSelf.successorAt_coe, hrest k hk₀]

/-- Without the entry `0` the first successor is the first one in use of the others. -/
theorem firstSucc_of_cleared_iff (hzero : ¬ s'.Alive 0)
    (hrest : ∀ k ≠ 0, s'.successor k = s.successor k) (P : NodeInfo → Prop) :
  nodeFirstAliveSucc s' ≠ -1 ∧ P s'.firstSucc
    ↔ ∃ k : Fin numOfSuccs, k ≠ 0 ∧ s.Alive k ∧ (∀ j < k, j ≠ 0 → ¬ s.Alive j)
      ∧ P (s.successor k)
  := by
  have halive : ∀ k ≠ 0, s'.Alive k ↔ s.Alive k := by
    intro k hk
    rw [NodeSelf.Alive, hrest k hk, NodeSelf.Alive]
  constructor
  · rintro ⟨hsome, hP⟩
    rcases nodeFirstAliveSucc_cases s' with ⟨hnone, -⟩ | ⟨k, hk, hkalive⟩
    · exact absurd hnone hsome
    · have hk₀ : k ≠ 0 := by
        rintro rfl
        exact hzero hkalive
      rw [NodeSelf.firstSucc, hk, NodeSelf.successorAt_coe, hrest k hk₀] at hP
      refine ⟨k, hk₀, (halive k hk₀).mp hkalive, ?_, hP⟩
      intro j hj hj₀
      exact mt (halive j hj₀).mpr ((nodeFirstAliveSucc_eq_coe_iff.mp hk).2 j hj)
  · rintro ⟨k, hk₀, hkalive, hbefore, hP⟩
    have hk : nodeFirstAliveSucc s' = k.val := by
      apply nodeFirstAliveSucc_eq_coe_iff.mpr
      use (halive k hk₀).mpr hkalive
      intro j hj
      by_cases hj₀ : j = 0
      · rw [hj₀]
        exact hzero
      · exact mt (halive j hj₀).mp (hbefore j hj hj₀)
    rw [NodeSelf.firstSucc, hk, NodeSelf.successorAt_coe, hrest k hk₀]
    exact ⟨by omega, hP⟩

/-! ### What is adopted -/

theorem adopted_successor_zero (h : Adopts s n) :
  (adopted s n).successor 0 = n
  := by
  rw [adopted, if_pos h]
  exact update_self (0 : Fin numOfSuccs) n s.successor

/-- Adoption leaves the fingers as they are, and the memory around the array. -/
theorem adopted_fingerTable (s : NodeSelf) (n : NodeInfo) :
  (adopted s n).fingerTable = s.fingerTable ∧ (adopted s n).outside = s.outside
  := by
  rw [adopted]
  split_ifs
  · exact ⟨rfl, rfl⟩
  · exact ⟨rfl, rfl⟩

end

/-! ### Moving closer -/

section

variable {ν : Type} [Remote ν]

/-- What a stabilisation of `p` to `q` is to do: `q` has a successor, which is not farther
than that of `p`, and is the one that is notified; and nothing but the entry `0` has
changed. -/
structure MovesCloser (p q : Process ν) : Prop where
  alive : nodeFirstAliveSucc q.node ≠ -1
  closer : lap q.node.self.id q.node.firstSucc.id ≤ lap p.node.self.id p.node.firstSucc.id
  entries : ∀ k ≠ 0, q.node.successor k = p.node.successor k
  predecessor : q.node.predecessor = p.node.predecessor ∧ q.node.hasPred = p.node.hasPred
  fingers : q.node.fingerTable = p.node.fingerTable
  notified : q.net = Remote.notifyNode p.net q.node q.node.firstSucc

/-- When a node without an address is adopted over the first successor, there is another one,
which is not farther. -/
def AddressOrBackup (s : NodeSelf) (n : NodeInfo) : Prop :=
  Adopts s n → n.IP = 0 → s.Alive 0 →
    ∃ k : Fin numOfSuccs, k ≠ 0 ∧ s.Alive k ∧ (∀ j < k, j ≠ 0 → ¬ s.Alive j)
      ∧ lap s.self.id (s.successor k).id ≤ lap s.self.id (s.successor 0).id

/-- A node with an address that is adopted is not farther than the first successor was. -/
theorem lap_le_of_adopts {s : NodeSelf} {n : NodeInfo} (h : Adopts s n) :
  lap s.self.id n.id ≤ lap s.self.id s.firstSucc.id
  := by
  rcases (adopts_iff.mp h).2 with hown | ⟨hne, hle⟩
  · rw [← hown, lap_self]
    apply lap_le
  · have hsucc : s.self.id ≠ s.firstSucc.id := by
      intro heq
      rw [← heq, clockwise_self] at hle
      exact hne (clockwise_eq_zero_iff.mp (Nat.le_zero.mp hle)).symm
    rw [lap_of_ne (Ne.symm hne), lap_of_ne hsucc]
    exact hle

/-- The first successor after adoption is there, and not farther, exactly when what is adopted
has an address or there is another one. -/
theorem adopted_closer_iff {s : NodeSelf} (halive : nodeFirstAliveSucc s ≠ -1) (n : NodeInfo) :
  (nodeFirstAliveSucc (adopted s n) ≠ -1
      ∧ lap s.self.id (adopted s n).firstSucc.id ≤ lap s.self.id s.firstSucc.id)
    ↔ AddressOrBackup s n
  := by
  by_cases hadopt : Adopts s n
  · have hrest : ∀ k ≠ 0, (adopted s n).successor k = s.successor k :=
      fun k hk => adopted_successor_of_ne s n hk
    have hat := adopted_successor_zero hadopt
    by_cases hIP : n.IP = 0
    · have hdead : ¬ (adopted s n).Alive 0 := by
        rw [NodeSelf.Alive, hat]
        exact not_not.mpr hIP
      by_cases hzero : s.Alive 0
      · rw [firstSucc_of_alive_zero hzero, firstSucc_of_cleared_iff hdead hrest
          fun m => lap s.self.id m.id ≤ lap s.self.id (s.successor 0).id]
        constructor
        · exact fun h _ _ _ => h
        · exact fun h => h hadopt hIP hzero
      · obtain ⟨hfirst, hsucc⟩ :=
          firstSucc_of_dead_zero hzero hdead hrest (adopted_fingerTable s n).2
        rw [hfirst, hsucc]
        exact iff_of_true ⟨halive, le_rfl⟩ fun _ _ h => absurd h hzero
    · have hsome : (adopted s n).Alive 0 := by
        rwa [NodeSelf.Alive, hat]
      rw [nodeFirstAliveSucc_of_alive_zero hsome, adopted_firstSucc_of_adopts hIP hadopt]
      exact iff_of_true ⟨by decide, lap_le_of_adopts hadopt⟩ fun _ h => absurd h hIP
  · rw [adopted, if_neg hadopt]
    exact iff_of_true ⟨halive, le_rfl⟩ fun h => absurd h hadopt

/-- Stabilisation never moves away from a successor exactly when what it adopts has an address
or there is another successor that is not farther. -/
theorem movesCloser_iff {p : Process ν} (halive : nodeFirstAliveSucc p.node ≠ -1) (n : NodeInfo) :
  MovesCloser p (nodeStabilizeSpFound p n) ↔ AddressOrBackup p.node n
  := by
  obtain ⟨hnode, hnet, -⟩ := nodeStabilizeSpFound_eq p n
  generalize nodeStabilizeSpFound p n = q at hnode hnet
  obtain ⟨hpred, hhas, hself⟩ := adopted_rest p.node n
  have hmoves : MovesCloser p q ↔ nodeFirstAliveSucc q.node ≠ -1
      ∧ lap p.node.self.id q.node.firstSucc.id ≤ lap p.node.self.id p.node.firstSucc.id := by
    constructor
    · intro h
      have hcloser := h.closer
      rw [hnode, hself, ← hnode] at hcloser
      exact ⟨h.alive, hcloser⟩
    · rintro ⟨halive', hcloser⟩
      refine ⟨halive', ?_, ?_, ?_, ?_, ?_⟩
      · rw [hnode, hself, ← hnode]
        exact hcloser
      · intro k hk
        rw [hnode]
        exact adopted_successor_of_ne p.node n hk
      · rw [hnode]
        exact ⟨hpred, hhas⟩
      · rw [hnode]
        exact (adopted_fingerTable p.node n).1
      · rw [hnet, hnode]
  rw [hmoves, hnode]
  exact adopted_closer_iff halive n

/-! ### What is overwritten -/

/-- The nodes in use in the successor array of `s`, other than the node itself, are in that
of `s'`. -/
def KeepsNodes (s s' : NodeSelf) : Prop :=
  ∀ k, s.Alive k → (s.successor k).id ≠ s.self.id → ∃ j, s'.successor j = s.successor k

/-- The entry `0` holds no other node that is in no other entry. -/
def ZeroToSpare (s : NodeSelf) : Prop :=
  s.Alive 0 → (s.successor 0).id ≠ s.self.id → ∃ k ≠ 0, s.successor k = s.successor 0

/-- The node `n` is adopted, and then the probe of the entry `0` fails. -/
def adoptFail (p : Process ν) (n : NodeInfo) : Process ν :=
  nodeCheckResult (nodeStabilizeSpFound p n) (.succResult 0) false

/-- One after another the nodes have an address and are adopted, and the probe fails. -/
def EachAdopted : Process ν → List NodeInfo → Prop
  | _, [] => True
  | p, n :: ns => (n.IP ≠ 0 ∧ Adopts p.node n) ∧ EachAdopted (adoptFail p n) ns

/-- Adoption and failure leave nothing but the entry `0` cleared. -/
theorem adoptFail_node (p : Process ν) (n : NodeInfo) :
  (adoptFail p n).node = { p.node with successor := update p.node.successor 0 nullNode }
  := by
  obtain ⟨hnode, -, -⟩ := nodeStabilizeSpFound_eq p n
  have hclear : (adoptFail p n).node
      = (nodeStabilizeSpFound p n).node.setSuccessor 0 nullNode := rfl
  rw [hclear, NodeSelf.setSuccessor_zero, hnode, adopted]
  split_ifs
  · rw [update_idem]
  · rfl

/-- Any number of adoptions and failures leave nothing but the entry `0` cleared. -/
theorem adoptFail_all_node (p : Process ν) {ns : List NodeInfo} (hne : ns ≠ []) :
  (ns.foldl adoptFail p).node = { p.node with successor := update p.node.successor 0 nullNode }
  := by
  induction ns generalizing p with
  | nil => exact absurd rfl hne
  | cons n ns ih =>
    rw [List.foldl_cons]
    by_cases hns : ns = []
    · rw [hns]
      exact adoptFail_node p n
    · rw [ih (adoptFail p n) hns, adoptFail_node]
      simp

/-- What is adopted is the first successor, and what is lost is the node that was in the entry
`0` and nowhere else. When there was none, any number of adoptions and failures leave the
node the successor that it had. -/
theorem adoption_keeps {p : Process ν} {n : NodeInfo} {ns : List NodeInfo}
    (hadopts : EachAdopted p (n :: ns))
    (hnew : ∀ k, p.node.Alive k → (p.node.successor k).id ≠ n.id) :
  (nodeFirstAliveSucc (nodeStabilizeSpFound p n).node = 0
      ∧ (nodeStabilizeSpFound p n).node.firstSucc = n)
    ∧ (KeepsNodes p.node (nodeStabilizeSpFound p n).node ↔ ZeroToSpare p.node)
    ∧ (∀ k ≠ 0, ((n :: ns).foldl adoptFail p).node.successor k = p.node.successor k)
    ∧ (¬ p.node.Alive 0 →
      nodeFirstAliveSucc ((n :: ns).foldl adoptFail p).node = nodeFirstAliveSucc p.node
        ∧ ((n :: ns).foldl adoptFail p).node.firstSucc = p.node.firstSucc)
  := by
  obtain ⟨⟨hIP, hadopt⟩, -⟩ := hadopts
  obtain ⟨hnode, -, -⟩ := nodeStabilizeSpFound_eq p n
  have hat := adopted_successor_zero hadopt
  have hrest : ∀ k ≠ 0, (adopted p.node n).successor k = p.node.successor k :=
    fun k hk => adopted_successor_of_ne p.node n hk
  have hsome : (adopted p.node n).Alive 0 := by rwa [NodeSelf.Alive, hat]
  have hall := adoptFail_all_node p (List.cons_ne_nil n ns)
  have hafter : ∀ k ≠ 0, ((n :: ns).foldl adoptFail p).node.successor k = p.node.successor k := by
    intro k hk
    rw [hall]
    exact update_of_ne hk _ _
  rw [hnode]
  refine ⟨⟨nodeFirstAliveSucc_of_alive_zero hsome, adopted_firstSucc_of_adopts hIP hadopt⟩,
    ?_, hafter, ?_⟩
  · constructor
    · intro hkeep hzero hother
      obtain ⟨j, hj⟩ := hkeep 0 hzero hother
      have hj₀ : j ≠ 0 := by
        rintro rfl
        rw [hat] at hj
        exact hnew 0 hzero (congrArg NodeInfo.id hj).symm
      exact ⟨j, hj₀, (hrest j hj₀).symm.trans hj⟩
    · intro hspare k hk hother
      by_cases hk₀ : k = 0
      · subst hk₀
        obtain ⟨j, hj₀, hj⟩ := hspare hk hother
        exact ⟨j, (hrest j hj₀).trans hj⟩
      · exact ⟨k, hrest k hk₀⟩
  · intro hzero
    apply firstSucc_of_dead_zero hzero _ hafter
    · rw [hall]
    · rw [hall, NodeSelf.Alive]
      simp [nullNode]

end

/-- The node `1`, with the successor `5`. -/
def withSuccessor : NodeSelf :=
  { NodeSelf.blank with
    self := { id := 1, IP := 0x7F000001, port := 1 }
    successor := update NodeSelf.blank.successor 0 { id := 5, IP := 1, port := 1 } }

theorem movesCloser_iff_noAddress :
  MovesCloser (idle withSuccessor)
      (nodeStabilizeSpFound (idle withSuccessor) { id := 3, IP := 0, port := 1 })
    ↔ AddressOrBackup withSuccessor { id := 3, IP := 0, port := 1 }
  := movesCloser_iff (by decide +kernel) _

/-- The node that is adopted has a port and no address, and the only successor is lost. -/
theorem successor_lost_to_no_address :
  ¬ ∀ (p : Process Outbox) (n : NodeInfo), nodeFirstAliveSucc p.node ≠ -1 →
    MovesCloser p (nodeStabilizeSpFound p n)
  := by
  intro h
  have halive := (h (idle withSuccessor) { id := 3, IP := 0, port := 1 } (by decide +kernel)).alive
  revert halive
  decide +kernel

/-- The node `1`, with the successor `5` in the entry `1`. -/
def withLaterSuccessor : NodeSelf :=
  { withSuccessor with
    successor := update NodeSelf.blank.successor 1 { id := 5, IP := 1, port := 1 } }

/-- A node between `1` and `5`. -/
def between : NodeInfo :=
  { id := 3, IP := 1, port := 1 }

theorem adoption_keeps_laterSuccessor :
  (nodeFirstAliveSucc (nodeStabilizeSpFound (idle withLaterSuccessor) between).node = 0
      ∧ (nodeStabilizeSpFound (idle withLaterSuccessor) between).node.firstSucc = between)
    ∧ (KeepsNodes withLaterSuccessor (nodeStabilizeSpFound (idle withLaterSuccessor) between).node
      ↔ ZeroToSpare withLaterSuccessor)
    ∧ (∀ k ≠ 0, ([between, between].foldl adoptFail (idle withLaterSuccessor)).node.successor k
      = withLaterSuccessor.successor k)
    ∧ (¬ withLaterSuccessor.Alive 0 →
      nodeFirstAliveSucc ([between, between].foldl adoptFail (idle withLaterSuccessor)).node
          = nodeFirstAliveSucc withLaterSuccessor
        ∧ ([between, between].foldl adoptFail (idle withLaterSuccessor)).node.firstSucc
          = withLaterSuccessor.firstSucc)
  := by
  have hfirst : between.IP ≠ 0 ∧ Adopts withLaterSuccessor between := by decide +kernel
  have hagain : Adopts (adoptFail (idle withLaterSuccessor) between).node between := by
    decide +kernel
  have hadopts : EachAdopted (idle withLaterSuccessor) [between, between] :=
    ⟨hfirst, ⟨hfirst.1, hagain⟩, trivial⟩
  exact adoption_keeps hadopts (by decide +kernel)

/-- The only successor is overwritten by a node that turns out to be dead. -/
theorem only_successor_overwritten :
  ¬ ∀ (p : Process Outbox) (n : NodeInfo), (∃ k, ¬ p.node.Alive k) → Adopts p.node n →
    (∀ k, p.node.Alive k → (p.node.successor k).id ≠ n.id) →
    (nodeStabilizeSpFound p n).node.firstSucc = n
      ∧ KeepsNodes p.node (nodeStabilizeSpFound p n).node
      ∧ (adoptFail p n).node.firstSucc = p.node.firstSucc
  := by
  intro h
  obtain ⟨-, hkeep, -⟩ := h (idle withSuccessor) between ⟨1, by decide +kernel⟩
    (by decide +kernel) (by decide +kernel)
  obtain ⟨j, hj⟩ := hkeep 0 (by decide) (by decide)
  revert j
  decide +kernel
