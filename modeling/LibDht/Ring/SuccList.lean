import LibDht.Node.Adopt
import LibDht.Ring.UpdatePass
import Mathlib.Data.Set.Insert

/-!
# The order of the successor array

A node updates its successor array by asking the node in an entry for the one after it, and
writes the reply into the next entry, by number: nothing tells it whether the node it asked is
still in the entry before. While other nodes join, chains of updates overlap, with each other
and with stabilisation.

A reply is current when the entry before has not got past the node that was asked, and the
node that the reply replaces was known when the reply was computed. As long as only current
replies are written, and no entry that held the node itself gets a node that is met after the
one in the next entry, the array stays in ring order.
-/

open Circle Function

namespace NodeSelf

/-- How far the node in the entry `k` is, clockwise. -/
def reach (s : NodeSelf) (k : Fin numOfSuccs) : ℕ :=
  clockwise s.self.id (s.successor k).id

/-- The entry `k` is in use, and holds another node than `s`. -/
def HoldsOther (s : NodeSelf) (k : Fin numOfSuccs) : Prop :=
  s.Alive k ∧ (s.successor k).id ≠ s.self.id

instance (s : NodeSelf) (k : Fin numOfSuccs) : Decidable (s.HoldsOther k) :=
  inferInstanceAs (Decidable (_ ∧ _))

/-- The entries in use are in ring order, up to the first one that holds the node itself. -/
def InRingOrder (s : NodeSelf) : Prop :=
  ∀ i j : Fin numOfSuccs, i < j → s.Alive i → s.Alive j →
    (∀ k ≤ j, s.Alive k → (s.successor k).id ≠ s.self.id) → s.reach i < s.reach j

/-- The node `n` may take the place of the node itself in the entry `j`: it is not past the
one in the next entry. -/
def FitsBefore (s : NodeSelf) (j : Fin numOfSuccs) (n : NodeInfo) : Prop :=
  (s.successor j).id = s.self.id → n.id ≠ s.self.id →
    ∀ k : Fin numOfSuccs, k.val = j.val + 1 → s.HoldsOther k →
      clockwise s.self.id n.id < s.reach k

end NodeSelf

/-- A request for the entry `slot`: the successor of `id`, asked of the node `asked`. -/
structure UpdateRequest where
  slot : ℤ
  asked : HashType
  id : HashType
  deriving DecidableEq

/-- The answer to a request, and the nodes that were in the network when it was given. -/
structure UpdateReply where
  request : UpdateRequest
  node : NodeInfo
  members : Set HashType

/-- A node, the nodes of its network, the requests that were not answered yet, and the replies
that have not arrived. -/
structure Updating where
  node : NodeSelf
  members : Set HashType
  requests : List UpdateRequest
  replies : List UpdateReply

/-- What happens around a node that updates its successor array. A request, and a reply, is
given by its place among those that wait. -/
inductive UpdateStep where
  | joined (id : HashType)
  | updateSuccs
  | answered (k : ℕ) (node : NodeInfo)
  | replied (k : ℕ) (hops : Int16)
  | stabilised (node : NodeInfo) (hops : Int16)

/-- The update requests among the messages sent. -/
def updateRequestsOf (sent : List Sent) : List UpdateRequest :=
  sent.filterMap fun
    | .findSuccessor dest id (.updateSuccsFound k) => some { slot := k, asked := dest.id, id := id }
    | _ => none

namespace Updating

/-- The node goes on to the state that an operation leaves, with the requests that it sent. -/
def after (w : Updating) (q : Process Outbox) : Updating :=
  { w with node := q.node, requests := w.requests ++ updateRequestsOf q.net.sent }

def step (w : Updating) : UpdateStep → Updating
  | .joined id => { w with members := insert id w.members }
  | .updateSuccs => w.after (nodeUpdateSuccs (idle w.node))
  | .answered k n =>
    match w.requests[k]? with
    | some r =>
      { w with
        requests := w.requests.eraseIdx k
        replies := w.replies ++ [{ request := r, node := n, members := w.members }] }
    | none => w
  | .replied k hops =>
    match w.replies[k]? with
    | some r =>
      { w with replies := w.replies.eraseIdx k }.after (nodeFound (idle w.node)
        { cb := .updateSuccsFound r.request.slot, node := r.node, hops := hops })
    | none => w
  | .stabilised n hops =>
    w.after (nodeFound (idle w.node) { cb := .stabilizeSpFound, node := n, hops := hops })

/-- What can happen: a request is answered with the true successor of the identifier that it
is for, and stabilisation finds no node or one that is in use. -/
def Possible (w : Updating) : UpdateStep → Prop
  | .answered k n => n.IP ≠ 0 ∧ ∀ r, w.requests[k]? = some r → Nearest w.members r.id n.id
  | .stabilised n _ => n = nullNode ∨ n.IP ≠ 0
  | _ => True

end Updating

/-- The reply is current: the entry before the one it is for is not past the node that was
asked, and the other node that it replaces, if there is one, is past the node that was asked
and was in the network when the reply was given. -/
structure UpdateReply.Current (r : UpdateReply) (s : NodeSelf) : Prop where
  asked : ∀ j : Fin numOfSuccs, r.request.slot = j.val + 1 →
    s.reach j ≤ clockwise s.self.id r.request.asked
  replaced : ∀ k : Fin numOfSuccs, r.request.slot = k.val → s.HoldsOther k →
    clockwise s.self.id r.request.asked < s.reach k ∧ (s.successor k).id ∈ r.members

namespace Updating

/-- A step writes only current replies, and puts no node in the place of the node itself that
does not fit there. -/
def Keeps (w : Updating) : UpdateStep → Prop
  | .replied k _ => ∀ r, w.replies[k]? = some r →
    r.Current w.node ∧ ∀ j : Fin numOfSuccs, r.request.slot = j.val → w.node.FitsBefore j r.node
  | .stabilised n _ => Adopts w.node n → w.node.FitsBefore 0 n
  | _ => True

/-- The states of runs whose steps are all as `ok` says. A run starts with one successor, in
the first entry: the one the node joined with, or the node itself if it created the network. -/
inductive Run (ok : Updating → UpdateStep → Prop) : Updating → Prop where
  | start (s : NodeSelf) (members : Set HashType) (hself : s.self.id ∈ members)
      (hsucc : s.Alive 0) (hrest : ∀ k ≠ 0, ¬ s.Alive k) :
      Run ok { node := s, members := members, requests := [], replies := [] }
  | next {w : Updating} (h : Run ok w) {st : UpdateStep} (hpossible : w.Possible st)
      (hok : ok w st) : Run ok (w.step st)

end Updating

/-! ### Writing an entry -/

namespace NodeSelf

/-- The array is filled from the front on, and goes up wherever two entries that follow each
other hold other nodes than `s`. -/
structure Rising (s : NodeSelf) : Prop where
  zero : s.Alive 0
  filled : ∀ i j : Fin numOfSuccs, i ≤ j → s.Alive j → s.Alive i
  rising : ∀ j k : Fin numOfSuccs, k.val = j.val + 1 → s.HoldsOther j → s.HoldsOther k →
    s.reach j < s.reach k

namespace Rising

variable {s : NodeSelf}

theorem inRingOrder (h : s.Rising) :
  s.InRingOrder
  := by
  intro i ⟨j, hj⟩
  induction j with
  | zero =>
    intro hij
    exact absurd hij (Fin.not_lt_zero i)
  | succ j ih =>
    intro hij halive halivej hothers
    let k : Fin numOfSuccs := ⟨j, by omega⟩
    have hk : k ≤ ⟨j + 1, hj⟩ := Nat.le_succ j
    have hkalive : s.Alive k := h.filled _ _ hk halivej
    have hlast : s.reach k < s.reach ⟨j + 1, hj⟩ :=
      h.rising k _ rfl ⟨hkalive, hothers k hk hkalive⟩ ⟨halivej, hothers _ le_rfl halivej⟩
    have hik : i.val ≤ j := Nat.le_of_lt_succ hij
    rcases hik.lt_or_eq with hlt | heq
    · have hprev : s.reach i < s.reach k := by
        apply ih _ hlt halive hkalive
        intro l hl
        exact hothers l (hl.trans hk)
      exact hprev.trans hlast
    · have hik' : i = k := Fin.ext heq
      rw [hik']
      exact hlast

/-- An entry is written, of which all before it are in use: the array still goes up when it
does so at the entry. -/
theorem setSuccessor (h : s.Rising) {k : Fin numOfSuccs} {n : NodeInfo} (hn : n.IP ≠ 0)
    (hfront : ∀ j : Fin numOfSuccs, k.val = j.val + 1 → s.Alive j)
    (hbefore : ∀ j : Fin numOfSuccs, k.val = j.val + 1 → s.HoldsOther j → n.id ≠ s.self.id →
      s.reach j < clockwise s.self.id n.id)
    (hafter : ∀ l : Fin numOfSuccs, l.val = k.val + 1 → s.HoldsOther l → n.id ≠ s.self.id →
      clockwise s.self.id n.id < s.reach l) :
  (s.setSuccessor k.val n).Rising
  := by
  rw [setSuccessor_coe]
  generalize hs' : { s with successor := update s.successor k n } = s'
  have hself : s'.self = s.self := by rw [← hs']
  have hat : s'.successor k = n := by
    rw [← hs']
    apply update_self
  have hne : ∀ j, j ≠ k → s'.successor j = s.successor j := by
    intro j hj
    rw [← hs']
    apply update_of_ne hj
  have halive : ∀ j, s.Alive j → s'.Alive j := by
    intro j hj
    by_cases hjk : j = k
    · rw [Alive, hjk, hat]
      exact hn
    · rw [Alive, hne j hjk]
      exact hj
  have hother : ∀ j, j ≠ k → s'.HoldsOther j → s.HoldsOther j := by
    intro j hjk hj
    rwa [HoldsOther, Alive, hne j hjk, hself] at hj
  have hreach : ∀ j, j ≠ k → s'.reach j = s.reach j := by
    intro j hjk
    rw [reach, hne j hjk, hself, reach]
  have hreachk : s'.reach k = clockwise s.self.id n.id := by rw [reach, hat, hself]
  constructor
  · exact halive 0 h.zero
  · intro i j hij hj
    by_cases hik : i = k
    · rw [NodeSelf.Alive, hik, hat]
      exact hn
    · apply halive
      by_cases hjk : j = k
      · -- the entry before is in use, and so are those before it
        have hlt : i.val < k.val := by
          have := Fin.le_def.mp hij
          have := Fin.val_ne_of_ne hik
          rw [← hjk] at this ⊢
          omega
        apply h.filled i ⟨k.val - 1, by omega⟩
        · apply Fin.le_def.mpr
          dsimp only
          omega
        · apply hfront
          dsimp only
          omega
      · apply h.filled i j hij
        rwa [NodeSelf.Alive, hne j hjk] at hj
  · intro j l hjl hj hl
    have hjl' : j ≠ l := by
      rintro rfl
      omega
    by_cases hjk : j = k
    · subst hjk
      rw [hreachk, hreach l (Ne.symm hjl')]
      apply hafter l hjl (hother l (Ne.symm hjl') hl)
      rw [← hat, ← hself]
      exact hj.2
    · rw [hreach j hjk]
      by_cases hlk : l = k
      · subst hlk
        rw [hreachk]
        apply hbefore j hjl (hother j hjk hj)
        rw [← hat, ← hself]
        exact hl.2
      · rw [hreach l hlk]
        exact h.rising j l hjl (hother j hjk hj) (hother l hlk hl)

end Rising

end NodeSelf

/-! ### What holds in every state -/

/-- The request is for the entry after one in use, and for the node after the one asked. -/
structure UpdateRequest.Sound (r : UpdateRequest) (s : NodeSelf) : Prop where
  id_eq : r.id = r.asked + 1
  slot : ∃ j k : Fin numOfSuccs, k.val = j.val + 1 ∧ r.slot = k.val ∧ s.Alive j

/-- The reply names the true successor among the nodes of the network, of which the node that
asked is one. -/
structure UpdateReply.Sound (r : UpdateReply) (s : NodeSelf) : Prop where
  request : r.request.Sound s
  alive : r.node.IP ≠ 0
  self_mem : s.self.id ∈ r.members
  nearest : Nearest r.members r.request.id r.node.id

/-- The invariant of the runs in which only current replies are written. -/
structure Updating.Invariant (w : Updating) : Prop where
  self_mem : w.node.self.id ∈ w.members
  rising : w.node.Rising
  request : ∀ r ∈ w.requests, r.Sound w.node
  reply : ∀ r ∈ w.replies, r.Sound w.node

section

variable {s s' : NodeSelf}

/-- Entries in use stay so. -/
theorem UpdateRequest.Sound.mono {r : UpdateRequest} (h : r.Sound s)
    (halive : ∀ k, s.Alive k → s'.Alive k) :
  r.Sound s'
  := by
  obtain ⟨j, k, hjk, hslot, hj⟩ := h.slot
  exact ⟨h.id_eq, j, k, hjk, hslot, halive j hj⟩

theorem UpdateReply.Sound.mono {r : UpdateReply} (h : r.Sound s)
    (halive : ∀ k, s.Alive k → s'.Alive k) (hself : s'.self = s.self) :
  r.Sound s'
  := ⟨h.request.mono halive, h.alive, hself ▸ h.self_mem, h.nearest⟩

/-- A node in use is written into an entry: entries in use stay so. -/
theorem NodeSelf.Alive.setSuccessor {j : Fin numOfSuccs} (h : s.Alive j) (k : ℤ) {n : NodeInfo}
    (hn : n.IP ≠ 0) :
  (s.setSuccessor k n).Alive j
  := by
  rw [NodeSelf.Alive, NodeSelf.setSuccessor_successor]
  split_ifs
  · exact hn
  · exact h

/-- A current reply fits between its neighbours. -/
theorem NodeSelf.Rising.setSuccessor_current (h : s.Rising) {r : UpdateReply} (hr : r.Sound s)
    (hcurrent : r.Current s)
    (hfits : ∀ j : Fin numOfSuccs, r.request.slot = j.val → s.FitsBefore j r.node) :
  (s.setSuccessor r.request.slot r.node).Rising
  := by
  obtain ⟨j, k, hjk, hslot, hj⟩ := hr.request.slot
  have hnext : Next r.members r.request.asked r.node.id := by
    apply next_of_nearest_succ
    rw [← hr.request.id_eq]
    exact hr.nearest
  rw [hslot]
  apply h.setSuccessor hr.alive
  · intro i hi
    obtain rfl : j = i := Fin.ext (by omega)
    exact hj
  · intro i hi _ hne
    have hasked : s.reach i ≤ clockwise s.self.id r.request.asked := by
      apply hcurrent.asked
      rw [hslot, hi]
      rfl
    exact hasked.trans_lt (hnext.lt_of_mem hr.self_mem hne)
  · intro l hl hother hne
    by_cases hself : (s.successor k).id = s.self.id
    · exact hfits k hslot hself hne l hl hother
    · have hk : s.HoldsOther k := by
        refine ⟨h.filled k l ?_ hother.1, hself⟩
        apply Fin.le_def.mpr
        omega
      obtain ⟨hlt, hmem⟩ := hcurrent.replaced k hslot hk
      exact (hnext.le_of_lt hmem hlt).trans_lt (h.rising k l hl hk hother)

/-- A node that is adopted fits before the next entry. -/
theorem NodeSelf.Rising.adopt (h : s.Rising) {n : NodeInfo} (hn : n = nullNode ∨ n.IP ≠ 0)
    (hfits : Adopts s n → s.FitsBefore 0 n) :
  (adopted s n).Rising
  := by
  by_cases hadopts : Adopts s n
  · obtain ⟨hsome, hwhere⟩ := adopts_iff.mp hadopts
    rw [firstSucc_of_alive_zero h.zero] at hwhere
    have hIP : n.IP ≠ 0 := by
      apply hn.resolve_left
      rintro rfl
      exact hsome.elim (fun hport => hport rfl) (fun hzero => hzero rfl)
    have hset : (s.setSuccessor (0 : Fin numOfSuccs).val n).Rising := by
      apply h.setSuccessor hIP
      · intro j hj
        cases hj
      · intro j hj
        cases hj
      · intro l hl hother hne
        by_cases hself : (s.successor 0).id = s.self.id
        · exact hfits hadopts hself hne l hl hother
        · obtain ⟨-, hle⟩ := hwhere.resolve_left (Ne.symm hself)
          exact hle.trans_lt (h.rising 0 l hl ⟨h.zero, hself⟩ hother)
    rw [NodeSelf.setSuccessor_coe] at hset
    rw [adopted, if_pos hadopts]
    exact hset
  · rw [adopted, if_neg hadopts]
    exact h

end

/-! ### Every step -/

namespace Updating.Invariant

variable {w : Updating}

/-- The node changes, and asks for entries after ones in use. -/
theorem after (h : w.Invariant) {q : Process Outbox} (hself : q.node.self = w.node.self)
    (hrising : q.node.Rising) (halive : ∀ k, w.node.Alive k → q.node.Alive k)
    (hsent : ∀ r ∈ updateRequestsOf q.net.sent, r.Sound q.node) :
  (w.after q).Invariant
  := by
  constructor
  · rw [show (w.after q).node.self = w.node.self from hself]
    exact h.self_mem
  · exact hrising
  · intro r hr
    rcases List.mem_append.mp hr with hr | hr
    · exact (h.request r hr).mono halive
    · exact hsent r hr
  · intro r hr
    exact (h.reply r hr).mono halive hself

/-- A node asks its first successor. -/
theorem updateSuccs (h : w.Invariant) :
  (w.step .updateSuccs).Invariant
  := by
  have hfirst := nodeFirstAliveSucc_of_alive_zero h.rising.zero
  have hnode : (nodeUpdateSuccs (idle w.node)).node = w.node := nodeUpdateSucc_node _ _
  have hsent := nodeUpdateSuccs_sent (k := 0) hfirst h.rising.zero
  apply h.after
  · rw [hnode]
  · rw [hnode]
    exact h.rising
  · intro k hk
    rw [hnode]
    exact hk
  · intro r hr
    rw [hsent] at hr
    obtain rfl := List.mem_singleton.mp hr
    rw [hnode]
    exact ⟨rfl, 0, 1, rfl, rfl, h.rising.zero⟩

/-- A request is answered. -/
theorem answered (h : w.Invariant) {k : ℕ} {n : NodeInfo} (hn : w.Possible (.answered k n)) :
  (w.step (.answered k n)).Invariant
  := by
  rw [step]
  split
  · rename_i r hk
    have hr := h.request r (List.mem_of_getElem? hk)
    constructor
    · exact h.self_mem
    · exact h.rising
    · intro r' hr'
      exact h.request r' (List.mem_of_mem_eraseIdx hr')
    · intro r' hr'
      rcases List.mem_append.mp hr' with hr' | hr'
      · exact h.reply r' hr'
      · obtain rfl := List.mem_singleton.mp hr'
        exact ⟨hr, hn.1, h.self_mem, hn.2 r hk⟩
  · exact h

/-- A reply is taken out of those that have not arrived. -/
theorem erase_reply (h : w.Invariant) (k : ℕ) :
  ({ w with replies := w.replies.eraseIdx k } : Updating).Invariant
  := ⟨h.self_mem, h.rising, h.request, fun r hr => h.reply r (List.mem_of_mem_eraseIdx hr)⟩

/-- A reply arrives, and is current. -/
theorem replied (h : w.Invariant) {k : ℕ} {hops : Int16} (hok : w.Keeps (.replied k hops)) :
  (w.step (.replied k hops)).Invariant
  := by
  rw [step]
  split
  · rename_i r hk
    have hr := h.reply r (List.mem_of_getElem? hk)
    obtain ⟨hcurrent, hfits⟩ := hok r hk
    have hrising := h.rising.setSuccessor_current hr hcurrent hfits
    obtain ⟨i, j, hij, hslot, hi⟩ := hr.request.slot
    rw [hslot] at hrising ⊢
    obtain ⟨hnode, hsent⟩ := nodeFound_updateSuccsFound (idle w.node) hr.alive j hops
    generalize nodeFound (idle w.node) { cb := .updateSuccsFound j.val, node := r.node, hops := hops }
      = q at hnode hsent ⊢
    apply (h.erase_reply k).after
    · rw [hnode]
      exact w.node.setSuccessor_self j.val r.node
    · rw [hnode]
      exact hrising
    · intro l hl
      rw [hnode]
      exact NodeSelf.Alive.setSuccessor hl j.val hr.alive
    · intro r' hr'
      rw [hsent, idle_sent, List.nil_append] at hr'
      split at hr'
      · rename_i hlast
        obtain rfl := List.mem_singleton.mp hr'
        refine ⟨rfl, j, ⟨j.val + 1, hlast⟩, rfl, rfl, ?_⟩
        rw [hnode, NodeSelf.Alive, NodeSelf.setSuccessor_successor, if_pos rfl]
        exact hr.alive
      · cases hr'
  · exact h

/-- The predecessor of the first successor is found. -/
theorem stabilised (h : w.Invariant) {n : NodeInfo} {hops : Int16}
    (hn : n = nullNode ∨ n.IP ≠ 0) (hok : w.Keeps (.stabilised n hops)) :
  (w.step (.stabilised n hops)).Invariant
  := by
  obtain ⟨hnode, hnet, -⟩ := nodeStabilizeSpFound_eq
    ((idle w.node).emit (.found .stabilizeSpFound n hops)) n
  have hrising := h.rising.adopt hn hok
  rw [step, nodeFound]
  dsimp only
  generalize nodeStabilizeSpFound ((idle w.node).emit (.found .stabilizeSpFound n hops)) n = q
    at hnode hnet ⊢
  apply h.after
  · rw [hnode]
    exact (adopted_rest w.node n).2.2
  · rw [hnode]
    exact hrising
  · intro k hk
    rw [hnode]
    by_cases hzero : k = 0
    · rw [hzero]
      exact hrising.zero
    · rw [NodeSelf.Alive, adopted_successor_of_ne _ n hzero]
      exact hk
  · intro r hr
    rw [hnet] at hr
    cases hr

theorem step {st : UpdateStep} (h : w.Invariant) (hpossible : w.Possible st) (hok : w.Keeps st) :
  (w.step st).Invariant
  := by
  cases st with
  | joined id => exact ⟨Set.mem_insert_of_mem id h.self_mem, h.rising, h.request, h.reply⟩
  | updateSuccs => exact h.updateSuccs
  | answered k n => exact h.answered hpossible
  | replied k hops => exact h.replied hok
  | stabilised n hops => exact h.stabilised hpossible hok

/-- A run starts with one successor. -/
theorem start {s : NodeSelf} {members : Set HashType} (hself : s.self.id ∈ members)
    (hsucc : s.Alive 0) (hrest : ∀ k ≠ 0, ¬ s.Alive k) :
  Updating.Invariant { node := s, members := members, requests := [], replies := [] }
  := by
  have hzero : ∀ k, s.Alive k → k = 0 := fun k hk => by_contra fun hne => hrest k hne hk
  constructor
  · exact hself
  · constructor
    · exact hsucc
    · intro i j hij hj
      rw [hzero j hj] at hij
      rw [Fin.le_zero_iff.mp hij]
      exact hsucc
    · intro j k hjk _ hk
      rw [hzero k hk.1] at hjk
      cases hjk
  · simp
  · simp

end Updating.Invariant

/-- Only a node that joins changes who is in the network. -/
theorem Updating.step_members (w : Updating) (st : UpdateStep) :
  (w.step st).members = match st with
    | .joined id => insert id w.members
    | _ => w.members
  := by
  cases st with
  | answered k n =>
    rw [Updating.step]
    split <;> rfl
  | replied k hops =>
    rw [Updating.step]
    split <;> rfl
  | _ => rfl

/-- In a run in which only current replies are written, and nobody takes the place of the node
itself in an entry without fitting there, the successor array is in ring order in every state,
however the chains of updates overlap with each other and with stabilisation, while other nodes
join. -/
theorem succList_inRingOrder {w : Updating} (h : Updating.Run Updating.Keeps w) :
  w.node.InRingOrder
  := by
  have hinv : w.Invariant := by
    induction h with
    | start s members hself hsucc hrest => exact Updating.Invariant.start hself hsucc hrest
    | next _ hpossible hok ih => exact ih.step hpossible hok
  exact hinv.rising.inRingOrder

/-! ### A ring of two, and of three -/

/-- The node `1`, whose successor is the node `5`. -/
def oneToFive : NodeSelf :=
  { NodeSelf.blank with
    self := { id := 1, IP := 1, port := 1 }
    successor := fun k => if k = 0 then { id := 5, IP := 5, port := 1 } else nullNode }

/-- The node `1` starts in a network of the nodes `members`. -/
def startOneToFive (members : Set HashType) : Updating :=
  { node := oneToFive, members := members, requests := [], replies := [] }

theorem run_startOneToFive {ok : Updating → UpdateStep → Prop} {members : Set HashType}
    (hself : (1 : HashType) ∈ members) :
  Updating.Run ok (startOneToFive members)
  := by
  apply Updating.Run.start oneToFive members hself
  · decide
  · decide

namespace Updating.Run

variable {ok : Updating → UpdateStep → Prop} {w : Updating}

theorem joined (h : Run ok w) (id : HashType) (hok : ok w (.joined id)) :
  Run ok (w.step (.joined id))
  := by
  have hpossible : w.Possible (.joined id) := trivial
  exact h.next hpossible hok

theorem updateSuccs (h : Run ok w) (hok : ok w .updateSuccs) :
  Run ok (w.step .updateSuccs)
  := by
  have hpossible : w.Possible .updateSuccs := trivial
  exact h.next hpossible hok

/-- A request that waits is answered. -/
theorem answered (h : Run ok w) {k : ℕ} {n : NodeInfo} (r : UpdateRequest) (hn : n.IP ≠ 0)
    (hk : w.requests[k]? = some r) (hnear : Nearest w.members r.id n.id)
    (hok : ok w (.answered k n)) :
  Run ok (w.step (.answered k n))
  := by
  have hpossible : w.Possible (.answered k n) := by
    refine ⟨hn, ?_⟩
    intro r' hr'
    obtain rfl := Option.some.inj (hk.symm.trans hr')
    exact hnear
  exact h.next hpossible hok

theorem replied (h : Run ok w) (k : ℕ) (hops : Int16) (hok : ok w (.replied k hops)) :
  Run ok (w.step (.replied k hops))
  := by
  have hpossible : w.Possible (.replied k hops) := trivial
  exact h.next hpossible hok

theorem stabilised (h : Run ok w) {n : NodeInfo} (hops : Int16) (hn : n.IP ≠ 0)
    (hok : ok w (.stabilised n hops)) :
  Run ok (w.step (.stabilised n hops))
  := by
  have hpossible : w.Possible (.stabilised n hops) := Or.inr hn
  exact h.next hpossible hok

end Updating.Run

/-- The nodes `known` are in the network, and were when the replies on the way were given. -/
structure Updating.Knows (known : List HashType) (w : Updating) : Prop where
  members : ∀ x ∈ known, x ∈ w.members
  replies : ∀ r ∈ w.replies, ∀ x ∈ known, x ∈ r.members

namespace Updating.Knows

variable {known : List HashType} {w : Updating}

theorem step (h : w.Knows known) (st : UpdateStep) :
  (w.step st).Knows known
  := by
  obtain ⟨hmembers, hreplies⟩ := h
  cases st with
  | joined id => exact ⟨fun x hx => Set.mem_insert_of_mem _ (hmembers x hx), hreplies⟩
  | updateSuccs => exact ⟨hmembers, hreplies⟩
  | stabilised n hops => exact ⟨hmembers, hreplies⟩
  | answered k n =>
    rw [Updating.step]
    split
    · refine ⟨hmembers, ?_⟩
      intro r hr
      rcases List.mem_append.mp hr with hr | hr
      · exact hreplies r hr
      · rw [List.mem_singleton.mp hr]
        exact hmembers
    · exact ⟨hmembers, hreplies⟩
  | replied k hops =>
    rw [Updating.step]
    split
    · exact ⟨hmembers, fun r hr => hreplies r (List.mem_of_mem_eraseIdx hr)⟩
    · exact ⟨hmembers, hreplies⟩

theorem foldl (h : w.Knows known) (steps : List UpdateStep) :
  (steps.foldl Updating.step w).Knows known
  := by
  induction steps generalizing w with
  | nil => exact h
  | cons st steps ih => exact ih (h.step st)

/-- A reply to the request `req` may be written if the array is as it should be, and the other
node that it replaces is one of those `known`. -/
theorem keeps_replied (h : w.Knows known) {k : ℕ} {hops : Int16} (req : UpdateRequest)
    (n : NodeInfo) (hk : (w.replies.map fun r => (r.request, r.node))[k]? = some (req, n))
    (hasked : ∀ j : Fin numOfSuccs, req.slot = j.val + 1 →
      w.node.reach j ≤ clockwise w.node.self.id req.asked)
    (hreplaced : ∀ j : Fin numOfSuccs, req.slot = j.val → w.node.HoldsOther j →
      clockwise w.node.self.id req.asked < w.node.reach j ∧ (w.node.successor j).id ∈ known)
    (hself : ∀ j, (w.node.successor j).id ≠ w.node.self.id) :
  w.Keeps (.replied k hops)
  := by
  intro r hr
  rw [List.getElem?_map, hr] at hk
  obtain ⟨hreq, rfl⟩ := Prod.mk.inj (Option.some.inj hk)
  subst hreq
  refine ⟨⟨hasked, ?_⟩, ?_⟩
  · intro j hslot hother
    obtain ⟨hlt, hmem⟩ := hreplaced j hslot hother
    exact ⟨hlt, h.replies r (List.mem_of_getElem? hr) _ hmem⟩
  · intro j _ hsame
    exact absurd hsame (hself j)

end Updating.Knows

/-- Two updates ask the node `5` for the node after it. Between their answers the node `7`
joins: the first one names the node `9`, the second one the node `7`, and both are written into
the entry `1`. The node `3` joins, stabilisation finds it, and the second update goes on to the
entry `2`. -/
def overlapping : List UpdateStep :=
  [.updateSuccs, .updateSuccs, .answered 0 { id := 9, IP := 9, port := 1 }, .joined 7,
    .answered 0 { id := 7, IP := 7, port := 1 }, .replied 0 1, .replied 0 1, .joined 3,
    .stabilised { id := 3, IP := 3, port := 1 } 1, .answered 1 { id := 9, IP := 9, port := 1 },
    .replied 0 1]

/-- The node `1` in a ring of three, after the first `k` of these steps. -/
def overlapped (k : ℕ) : Updating :=
  (overlapping.take k).foldl Updating.step (startOneToFive {1, 5, 9})

theorem knows_overlapped (k : ℕ) :
  (overlapped k).Knows [1, 5, 9]
  := by
  have hstart : (startOneToFive {1, 5, 9}).Knows [1, 5, 9] := by
    constructor <;> simp [startOneToFive]
  exact hstart.foldl _

/-- Both requests are answered, one before the node `7` joined and one after. -/
theorem run_overlapped_answered :
  Updating.Run Updating.Keeps (overlapped 5)
  := by
  have hstart : Updating.Run Updating.Keeps (startOneToFive {1, 5, 9}) :=
    run_startOneToFive (by simp)
  have hnine : Nearest ({1, 5, 9} : Set HashType) 6 9 := by
    constructor
    · simp
    · rintro x (rfl | rfl | rfl) <;> decide
  have hseven : Nearest (insert 7 ({1, 5, 9} : Set HashType)) 6 7 := by
    constructor
    · simp
    · rintro x (rfl | rfl | rfl | rfl) <;> decide
  have hfirst : Updating.Run Updating.Keeps (overlapped 3) := by
    apply ((hstart.updateSuccs trivial).updateSuccs trivial).answered
      { slot := 1, asked := 5, id := 6 }
    · decide
    · decide +kernel
    · simp only [Updating.step_members]
      exact hnine
    · trivial
  apply (hfirst.joined 7 trivial).answered { slot := 1, asked := 5, id := 6 }
  · decide
  · decide +kernel
  · simp only [overlapped, overlapping, List.take_succ_cons, List.take_zero, List.foldl_cons,
      List.foldl_nil, Updating.step_members]
    exact hseven
  · trivial

/-- The second reply puts the node `7` in the place of the node `9`, which was known when it
was given. -/
theorem run_overlapped_replied :
  Updating.Run Updating.Keeps (overlapped 7)
  := by
  have hnine : Updating.Run Updating.Keeps (overlapped 6) := by
    apply run_overlapped_answered.replied
    apply (knows_overlapped 5).keeps_replied { slot := 1, asked := 5, id := 6 }
      { id := 9, IP := 9, port := 1 } <;> decide +kernel
  apply hnine.replied
  apply (knows_overlapped 6).keeps_replied { slot := 1, asked := 5, id := 6 }
    { id := 7, IP := 7, port := 1 } <;> decide +kernel

theorem run_overlapped :
  Updating.Run Updating.Keeps (overlapped 11)
  := by
  have hthree : Updating.Run Updating.Keeps (overlapped 9) := by
    apply (run_overlapped_replied.joined 3 trivial).stabilised
    · decide
    · intro _ hself
      exact absurd hself (by decide +kernel)
  have hlast : Nearest (insert 3 (insert 7 ({1, 5, 9} : Set HashType))) 8 9 := by
    constructor
    · simp
    · rintro x (rfl | rfl | rfl | rfl | rfl) <;> decide
  have hanswered : Updating.Run Updating.Keeps (overlapped 10) := by
    apply hthree.answered { slot := 2, asked := 7, id := 8 }
    · decide
    · decide +kernel
    · simp only [overlapped, overlapping, List.take_succ_cons, List.take_zero, List.foldl_cons,
        List.foldl_nil, Updating.step_members]
      exact hlast
    · trivial
  apply hanswered.replied
  apply (knows_overlapped 10).keeps_replied { slot := 2, asked := 7, id := 8 }
    { id := 9, IP := 9, port := 1 } <;> decide +kernel

/-- The chains overlap with each other, with two joins and with stabilisation, and the array
ends as `3, 7, 9`. -/
theorem succList_inRingOrder_overlapped :
  (overlapped 11).node.InRingOrder ∧ ((overlapped 11).node.successor 0).id = 3
    ∧ ((overlapped 11).node.successor 1).id = 7 ∧ ((overlapped 11).node.successor 2).id = 9
  := by
  refine ⟨succList_inRingOrder run_overlapped, ?_, ?_, ?_⟩ <;> decide +kernel

/-- The node `1` has the array `5, 1, 5` in a ring of two. The node `9` joins between `5` and
`1`, and the next reply for the entry `1` makes the array `5, 9, 5`. -/
theorem second_lap_out_of_order :
  ∃ w, Updating.Run (fun _ _ => True) w ∧ ¬ w.node.InRingOrder
  := by
  have hstart : Updating.Run (fun _ _ => True) (startOneToFive {1, 5}) :=
    run_startOneToFive (by simp)
  have hone : Nearest ({1, 5} : Set HashType) 6 1 := by
    constructor
    · simp
    · rintro x (rfl | rfl) <;> decide
  have hfive : Nearest ({1, 5} : Set HashType) 2 5 := by
    constructor
    · simp
    · rintro x (rfl | rfl) <;> decide
  have hfirst : Updating.Run (fun _ _ => True) ([.updateSuccs,
      .answered 0 { id := 1, IP := 1, port := 1 }, .replied 0 1].foldl Updating.step
        (startOneToFive {1, 5})) := by
    apply Updating.Run.replied
    · apply (hstart.updateSuccs trivial).answered { slot := 1, asked := 5, id := 6 }
      · decide
      · decide +kernel
      · rw [Updating.step_members]
        exact hone
      · trivial
    · trivial
  have hsecond : Updating.Run (fun _ _ => True) ([.updateSuccs,
      .answered 0 { id := 1, IP := 1, port := 1 }, .replied 0 1,
      .answered 0 { id := 5, IP := 5, port := 1 }, .replied 0 1].foldl Updating.step
        (startOneToFive {1, 5})) := by
    apply Updating.Run.replied
    · apply hfirst.answered { slot := 2, asked := 1, id := 2 }
      · decide
      · decide +kernel
      · simp only [List.foldl_cons, List.foldl_nil, Updating.step_members]
        exact hfive
      · trivial
    · trivial
  have hnine : Nearest (insert 9 ({1, 5} : Set HashType)) 6 9 := by
    constructor
    · simp
    · rintro x (rfl | rfl | rfl) <;> decide
  refine ⟨[.updateSuccs, .answered 0 { id := 1, IP := 1, port := 1 }, .replied 0 1,
    .answered 0 { id := 5, IP := 5, port := 1 }, .replied 0 1, .joined 9, .updateSuccs,
    .answered 1 { id := 9, IP := 9, port := 1 }, .replied 0 1].foldl Updating.step
      (startOneToFive {1, 5}), ?_, ?_⟩
  · apply Updating.Run.replied
    · apply ((hsecond.joined 9 trivial).updateSuccs trivial).answered
        { slot := 1, asked := 5, id := 6 }
      · decide
      · decide +kernel
      · simp only [List.foldl_cons, List.foldl_nil, Updating.step_members]
        exact hnine
      · trivial
    · trivial
  · intro h
    have hlt := h 1 2 (by decide) (by decide +kernel) (by decide +kernel) (by decide +kernel)
    revert hlt
    decide +kernel
