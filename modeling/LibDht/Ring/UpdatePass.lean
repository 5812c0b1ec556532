import LibDht.Node.Lookup
import LibDht.Node.Outbox

/-!
# An update pass over the successor array

`node_update_succs` asks the first successor in use for the node after it; the reply goes
into the next entry, whose node is asked in turn, until the end of the array. The pass
starts at the entry it finds the first successor in, and moves nothing to the front: it
restores the array exactly when that entry is the entry `0`. When it is the entry `k`, the
`k` cleared entries before it stay cleared.
-/

open Circle

/-- Every node of the ring `S` that is asked for the successor of an identifier answers with
the node that owns the identifier. -/
structure Answering (S : Set HashType) (ask : NodeInfo → HashType → NodeInfo) : Prop where
  nearest : ∀ n id, n.id ∈ S → Nearest S id (ask n id).id
  alive : ∀ n id, n.id ∈ S → (ask n id).IP ≠ 0

/-- The replies to the requests sent, and to those that handling the replies sends, arrive,
until none is outstanding. -/
def replies (ask : NodeInfo → HashType → NodeInfo) : ℕ → Process Outbox → Process Outbox
  | 0, p => p
  | fuel + 1, p =>
    match p.net.sent with
    | .findSuccessor dest id cb :: rest =>
      replies ask fuel
        (nodeFound { p with net := ⟨rest⟩ } { cb := cb, node := ask dest id, hops := 1 })
    | _ => p

/-- An update pass of the node `s`, with all the replies. -/
def updatePass (ask : NodeInfo → HashType → NodeInfo) (s : NodeSelf) : Process Outbox :=
  replies ask numOfSuccs (nodeUpdateSuccs (idle s))

/-- The successor array of `s'` holds, in order, the nodes that follow clockwise, starting
with the first successor in use of `s`. -/
structure Restored (S : Set HashType) (s s' : NodeSelf) : Prop where
  first : s'.successor 0 = s.firstSucc
  alive : ∀ k, s'.Alive k
  next : ∀ j k : Fin numOfSuccs, k.val = j.val + 1 →
    Next S (s'.successor j).id (s'.successor k).id

/-! ### One reply -/

section Reply

variable {S : Set HashType} {ask : NodeInfo → HashType → NodeInfo}

/-- The node that owns the identifier after that of a node comes after the node. -/
theorem next_of_nearest_succ {a m : HashType} (h : Nearest S (a + 1) m) :
  Next S a m
  := by
  constructor
  · apply h.mem
  · intro x hx hxa
    have hle := h.le x hx
    have hxa' : a.toNat ≠ x.toNat := fun heq => hxa (UInt32.toNat_inj.mp heq).symm
    have hsucc : (a + 1).toNat = (a.toNat + 1) % 2 ^ 32 := by
      simp [UInt32.toNat_add]
    have hal := a.toNat_lt
    have hxl := x.toNat_lt
    have hml := m.toNat_lt
    have h₁ := clockwise_cases (a + 1) x
    have h₂ := clockwise_cases (a + 1) m
    have h₃ := clockwise_cases a x
    have h₄ := clockwise_cases a m
    simp only [position_val, UInt32.size] at h₁ h₂ h₃ h₄
    rw [ne_eq, ← UInt32.toNat_inj]
    omega

/-- A node for the entry `j` is written there, and asked for the next one unless the entry
is the last one. -/
theorem nodeFound_updateSuccsFound (p : Process Outbox) {n : NodeInfo} (hn : n.IP ≠ 0)
    (j : Fin numOfSuccs) (hops : Int16) :
  let q := nodeFound p { cb := .updateSuccsFound j.val, node := n, hops := hops }
  q.node = p.node.setSuccessor j.val n
    ∧ q.net.sent = p.net.sent ++ if j.val + 1 < numOfSuccs then
        [.findSuccessor n (n.id + 1) (.updateSuccsFound (j.val + 1))] else []
  := by
  have hread : (p.node.setSuccessor j.val n).successorAt j.val = n := by
    simp [NodeSelf.setSuccessor_coe]
  unfold nodeFound nodeUpdateSuccsFound nodeUpdateSucc
  dsimp only
  have hlast : ((j.val : ℤ) < numOfSuccs - 1) ↔ j.val + 1 < numOfSuccs := by omega
  simp only [Process.touch_node, Process.setSucc_node, Process.lock_node, Process.emit_node, hread,
    hlast]
  split_ifs with hend hIP
  · exact absurd (by simpa using hIP) hn
  · refine ⟨rfl, ?_⟩
    simp [nodeFindSuccessorRemote, Remote.findSuccessorRemote]
  · simp

/-- A reply that comes after the last entry is written out of bounds, and the pass ends. -/
theorem nodeFound_updateSuccsFound_end (p : Process Outbox) (n : NodeInfo) (hops : Int16) :
  let q := nodeFound p { cb := .updateSuccsFound numOfSuccs, node := n, hops := hops }
  q.node = p.node ∧ q.net.sent = p.net.sent
  := ⟨rfl, rfl⟩

/-! ### The whole pass -/

/-- A pass starts with the first entry in use, whose node it asks for the next one. -/
theorem nodeUpdateSuccs_sent {s : NodeSelf} {k : Fin numOfSuccs}
    (hk : nodeFirstAliveSucc s = k.val) (halive : s.Alive k) :
  (nodeUpdateSuccs (idle s)).net.sent
    = [.findSuccessor (s.successor k) ((s.successor k).id + 1) (.updateSuccsFound (k.val + 1))]
  := by
  have hIP : ¬ ((s.successor k).IP == 0) = true := by simpa [NodeSelf.Alive] using halive
  unfold nodeUpdateSuccs nodeUpdateSucc
  dsimp only
  simp only [Process.touch_node, Process.lock_node, idle_node, hk, NodeSelf.successorAt_coe, hIP]
  rfl

/-- With nothing sent there is nothing to reply to. -/
theorem replies_of_sent_nil (fuel : ℕ) {p : Process Outbox} (h : p.net.sent = []) :
  replies ask fuel p = p
  := by
  cases fuel with
  | zero => rfl
  | succ fuel => simp only [replies, h]

/-- What the replies make of a process `p` whose pass has asked the node in the entry `j`:
nothing is left to send, the entries up to `j` stay, and those after it are filled with the
nodes that follow. -/
structure FilledAfter (S : Set HashType) (j : Fin numOfSuccs) (p q : Process Outbox) : Prop where
  sent : q.net.sent = []
  upto : ∀ i ≤ j, q.node.successor i = p.node.successor i
  alive : ∀ i > j, q.node.Alive i
  next : ∀ i k : Fin numOfSuccs, j ≤ i → k.val = i.val + 1 →
    Next S (q.node.successor i).id (q.node.successor k).id

namespace FilledAfter

variable {j k : Fin numOfSuccs} {p q r : Process Outbox}

/-- After the last entry there is none to fill. -/
theorem last (hlast : ¬ j.val + 1 < numOfSuccs) (hsent : q.net.sent = [])
    (hupto : ∀ i ≤ j, q.node.successor i = p.node.successor i) :
  FilledAfter S j p q
  := by
  refine ⟨hsent, hupto, ?_, ?_⟩
  · intro i hi
    have := Fin.lt_def.mp hi
    omega
  · intro i l hi hl
    have := Fin.le_def.mp hi
    omega

/-- The entry after `j` is written and its node asked, and the entries after that one are
filled. -/
theorem cons (hk : k.val = j.val + 1) (hbefore : ∀ i ≤ j, q.node.successor i = p.node.successor i)
    (halive : q.node.Alive k) (hnext : Next S (p.node.successor j).id (q.node.successor k).id)
    (h : FilledAfter S k q r) :
  FilledAfter S j p r
  := by
  have hjk : j ≤ k := Fin.le_def.mpr (by omega)
  constructor
  · apply h.sent
  · intro i hi
    rw [h.upto i (hi.trans hjk), hbefore i hi]
  · intro i hi
    rcases lt_or_eq_of_le (show k.val ≤ i.val from hk ▸ Fin.lt_def.mp hi) with hlt | heq
    · apply h.alive i hlt
    · obtain rfl := Fin.ext heq
      rw [NodeSelf.Alive, h.upto k le_rfl]
      apply halive
  · intro i l hi hl
    by_cases hij : i = j
    · subst hij
      obtain rfl : l = k := Fin.ext (hl.trans hk.symm)
      rw [h.upto l le_rfl, h.upto i hjk, hbefore i le_rfl]
      apply hnext
    · apply h.next i l _ hl
      have := Fin.le_def.mp hi
      have := Fin.val_ne_of_ne hij
      apply Fin.le_def.mpr
      omega

end FilledAfter

/-- The replies fill the entries after the one whose node the pass has asked. -/
theorem replies_filledAfter (hask : Answering S ask) {fuel : ℕ} {p : Process Outbox}
    (j : Fin numOfSuccs) (hfuel : numOfSuccs ≤ fuel + j.val) (hmem : (p.node.successor j).id ∈ S)
    (hsent : p.net.sent = [.findSuccessor (p.node.successor j) ((p.node.successor j).id + 1)
      (.updateSuccsFound (j.val + 1))]) :
  FilledAfter S j p (replies ask fuel p)
  := by
  -- the induction is on the fuel, and the entry asked moves up by one with every reply
  induction fuel generalizing p j with
  | zero =>
    have := j.isLt
    omega
  | succ fuel ih =>
    have hnear := hask.nearest _ ((p.node.successor j).id + 1) hmem
    have halive := hask.alive _ ((p.node.successor j).id + 1) hmem
    simp only [replies, hsent]
    generalize ask (p.node.successor j) ((p.node.successor j).id + 1) = r at hnear halive
    by_cases hlast : j.val + 1 < numOfSuccs
    · obtain ⟨k, hk⟩ : ∃ k : Fin numOfSuccs, k.val = j.val + 1 := ⟨⟨j.val + 1, hlast⟩, rfl⟩
      have hcast : (j.val : ℤ) + 1 = k.val := by omega
      rw [hcast]
      -- the process after the reply for the entry `k`
      obtain ⟨hnode, hout⟩ := nodeFound_updateSuccsFound { p with net := Outbox.mk [] } halive k 1
      generalize nodeFound { p with net := Outbox.mk [] }
        { cb := .updateSuccsFound k.val, node := r, hops := 1 } = q at hnode hout ⊢
      have hat : q.node.successor k = r := by
        rw [hnode, NodeSelf.setSuccessor_coe]
        simp
      apply FilledAfter.cons (q := q) hk
      · intro i hi
        rw [hnode]
        apply NodeSelf.setSuccessor_successor_of_ne
        have := Fin.le_def.mp hi
        omega
      · rw [NodeSelf.Alive, hat]
        apply halive
      · rw [hat]
        apply next_of_nearest_succ hnear
      · by_cases hend : k.val + 1 < numOfSuccs
        · apply ih k (by omega)
          · rw [hat]
            apply hnear.mem
          · rw [hout, if_pos hend, hat]
            rfl
        · have hnil : q.net.sent = [] := by
            rw [hout, if_neg hend]
            rfl
          rw [replies_of_sent_nil fuel hnil]
          apply FilledAfter.last hend hnil
          exact fun _ _ => rfl
    · -- the last entry was asked, and the reply is written out of bounds
      have hcast : (j.val : ℤ) + 1 = numOfSuccs := by omega
      rw [hcast]
      obtain ⟨hnode, hout⟩ := nodeFound_updateSuccsFound_end { p with net := Outbox.mk [] } r 1
      generalize nodeFound { p with net := Outbox.mk [] }
        { cb := .updateSuccsFound numOfSuccs, node := r, hops := 1 } = q at hnode hout ⊢
      rw [replies_of_sent_nil fuel hout]
      apply FilledAfter.last hlast hout
      intro i _
      rw [hnode]

end Reply

/-- An update pass on a ring where every node answers right, of a node whose first successor
in use is the next node clockwise, ends, and restores the successor array exactly when that
successor is in the entry `0`. -/
theorem updatePass_restored_iff {S : Set HashType} {ask : NodeInfo → HashType → NodeInfo}
    {s : NodeSelf} (hask : Answering S ask) (halive : nodeFirstAliveSucc s ≠ -1)
    (hnext : Next S s.self.id s.firstSucc.id) :
  (updatePass ask s).net.sent = []
    ∧ (Restored S s (updatePass ask s).node ↔ s.Alive 0)
  := by
  rcases nodeFirstAliveSucc_cases s with ⟨hnone, -⟩ | ⟨k, hk, hkalive⟩
  · exact absurd hnone halive
  have hfirst : s.firstSucc = s.successor k := by
    rw [NodeSelf.firstSucc, hk, NodeSelf.successorAt_coe]
  have hnode : (nodeUpdateSuccs (idle s)).node = s := nodeUpdateSucc_node _ _
  have hsent := nodeUpdateSuccs_sent hk hkalive
  have hmem : (s.successor k).id ∈ S := hfirst ▸ hnext.mem
  have hfilled := replies_filledAfter hask (p := nodeUpdateSuccs (idle s)) k
    (Nat.le_add_right numOfSuccs k.val) (by rw [hnode]; apply hmem) (by rw [hnode]; apply hsent)
  have hupto := hfilled.upto
  rw [hnode] at hupto
  refine ⟨hfilled.sent, ?_, ?_⟩
  · -- the entry `0` is not written
    intro h
    have hzero := h.alive 0
    rw [NodeSelf.Alive] at hzero ⊢
    rw [← hupto 0 (Fin.zero_le k)]
    apply hzero
  · intro hzero
    have hk₀ : k = 0 := by
      apply Fin.ext
      have := hk.symm.trans (nodeFirstAliveSucc_of_alive_zero hzero)
      simpa using this
    subst hk₀
    constructor
    · rw [hfirst]
      apply hupto 0 le_rfl
    · intro i
      by_cases hi : i = 0
      · rw [hi, NodeSelf.Alive]
        exact (congrArg NodeInfo.IP (hupto 0 le_rfl)).trans_ne hkalive
      · apply hfilled.alive i (Fin.pos_of_ne_zero hi)
    · intro j l hl
      apply hfilled.next j l (Fin.zero_le j) hl

/-! ### Two nodes of a ring of three -/

/-- The answers in the ring of the nodes `10`, `20` and `30`. -/
def askThree (_ : NodeInfo) (id : HashType) : NodeInfo :=
  if id ≤ 10 then { id := 10, IP := 1, port := 1 }
  else if id ≤ 20 then { id := 20, IP := 2, port := 1 }
  else if id ≤ 30 then { id := 30, IP := 3, port := 1 }
  else { id := 10, IP := 1, port := 1 }

theorem askThree_cases (n : NodeInfo) (id : HashType) :
  (askThree n id).IP ≠ 0
    ∧ ((askThree n id).id = 10 ∧ (id ≤ 10 ∨ ¬ id ≤ 30)
      ∨ (askThree n id).id = 20 ∧ ¬ id ≤ 10 ∧ id ≤ 20
      ∨ (askThree n id).id = 30 ∧ ¬ id ≤ 20 ∧ id ≤ 30)
  := by
  rw [askThree]
  by_cases h₁ : id ≤ 10
  · simp [h₁]
  · by_cases h₂ : id ≤ 20
    · simp [h₁, h₂]
    · by_cases h₃ : id ≤ 30
      · simp [h₁, h₂, h₃]
      · simp [h₁, h₂, h₃]

theorem answering_three :
  Answering {10, 20, 30} askThree
  := by
  constructor
  · intro n id _
    obtain ⟨-, hcases⟩ := askThree_cases n id
    constructor
    · rcases hcases with ⟨h, -⟩ | ⟨h, -⟩ | ⟨h, -⟩ <;> rw [h] <;> simp
    · intro x hx
      have hid := id.toNat_lt
      have hten : (10 : UInt32).toNat = 10 := rfl
      have htwenty : (20 : UInt32).toNat = 20 := rfl
      have hthirty : (30 : UInt32).toNat = 30 := rfl
      have h₁ := clockwise_cases id x
      have h₂ := clockwise_cases id (askThree n id).id
      simp only [UInt32.le_iff_toNat_le, hten, htwenty, hthirty] at hcases
      rcases hcases with ⟨h, hle⟩ | ⟨h, hle⟩ | ⟨h, hle⟩ <;> rw [h] at h₂ ⊢ <;>
        rcases hx with rfl | rfl | rfl <;>
        simp only [position_val, UInt32.size, hten, htwenty, hthirty] at h₁ h₂ <;> omega
  · intro n id _
    apply (askThree_cases n id).1

/-- The node `10`, with its successor `20` in the entries that `cleared` leaves. -/
def tenWith (cleared : Fin numOfSuccs → Bool) : NodeSelf :=
  { NodeSelf.blank with
    self := { id := 10, IP := 1, port := 1 }
    successor := fun k => if cleared k then nullNode else { id := 20, IP := 2, port := 1 } }

theorem next_three {s : NodeSelf} (hself : s.self.id = 10) (hsucc : s.firstSucc.id = 20) :
  Next {10, 20, 30} s.self.id s.firstSucc.id
  := by
  rw [hself, hsucc]
  constructor
  · simp
  · rintro x (rfl | rfl | rfl) hx
    · exact absurd rfl hx
    · decide
    · decide

/-- With no entry cleared the pass restores the array. -/
theorem updatePass_restored_three :
  Restored {10, 20, 30} (tenWith fun _ => false) (updatePass askThree (tenWith fun _ => false)).node
  := by
  apply (updatePass_restored_iff answering_three (by decide +kernel)
    (next_three rfl (by decide +kernel))).2.mpr
  decide

/-- With the entry `0` cleared by a failed probe, the pass leaves it cleared. -/
theorem updatePass_entry_zero_stays_cleared :
  Answering {10, 20, 30} askThree
    ∧ nodeFirstAliveSucc (tenWith fun k => k == 0) ≠ -1
    ∧ Next {10, 20, 30} (tenWith fun k => k == 0).self.id (tenWith fun k => k == 0).firstSucc.id
    ∧ ¬ Restored {10, 20, 30} (tenWith fun k => k == 0)
      (updatePass askThree (tenWith fun k => k == 0)).node
  := by
  refine ⟨answering_three, by decide +kernel, next_three rfl (by decide +kernel), ?_⟩
  intro h
  have hdead : ¬ (updatePass askThree (tenWith fun k => k == 0)).node.Alive 0 := by decide +kernel
  apply hdead (h.alive 0)
