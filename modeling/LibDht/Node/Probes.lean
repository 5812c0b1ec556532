import LibDht.Node.Adopt
import LibDht.Node.Outbox

/-!
# Probes and the entries they are for

A node probes the nodes in its successor array and its predecessor. A probe remembers the
number of the entry, and not the node in it: when it fails, the entry is cleared, whoever is
in it then. So the failure of a probe removes only the node that was probed exactly as long
as nothing puts another node into the entry while the probe is in flight.
-/

/-- A node, and the probes in flight: whom each was sent to, and its callback. -/
structure Watch where
  node : NodeSelf
  flight : List (NodeInfo × CheckCb)

/-- What happens to a node that sends probes. A probe in flight, given by its place among
them, has an outcome, or ends without one when its connection is closed by the other side. -/
inductive WatchStep where
  | create (joinedCbArg : ℕ)
  | join (contact : NodeInfo) (joinedCbArg : ℕ)
  | joined (joinedCbArg : ℕ)
  | stabilise
  | updateSuccs
  | fixFingers
  | checkSuccs
  | checkPred
  | lookup (id : HashType) (cb : FoundCb) (hcb : cb.Passive)
  | found (data : NodeFoundCbData)
  | notified (node : NodeInfo)
  | outcome (k : ℕ) (success : Bool)
  | ended (k : ℕ)

/-- The probes among the messages sent. -/
def probesOf (sent : List Sent) : List (NodeInfo × CheckCb) :=
  sent.filterMap fun
    | .alive dest cb => some (dest, cb)
    | _ => none

namespace Watch

/-- The node goes on to the state that an operation leaves, with the probes that it sent. -/
def after (w : Watch) (q : Process Outbox) : Watch :=
  { node := q.node, flight := w.flight ++ probesOf q.net.sent }

def step (w : Watch) : WatchStep → Watch
  | .create arg => w.after (nodeNetworkCreate (idle w.node) arg).2
  | .join contact arg => w.after (nodeNetworkJoin (idle w.node) contact arg)
  | .joined arg => w.after (nodeNetworkJoined (idle w.node) arg)
  | .stabilise => w.after (nodeNetworkStabalize (idle w.node))
  | .updateSuccs => w.after (nodeUpdateSuccs (idle w.node))
  | .fixFingers => w.after (nodeFixFingers (idle w.node))
  | .checkSuccs => w.after (nodeCheckSuccessors (idle w.node))
  | .checkPred => w.after (nodeCheckPredecessor (idle w.node))
  | .lookup id cb _ => w.after (nodeFindSuccessor (idle w.node) id cb).2
  | .found data => w.after (nodeFound (idle w.node) data)
  | .notified n => { w with node := nodeNotified w.node n }
  | .outcome k success =>
    match w.flight[k]? with
    | some (_, cb) =>
      { node := (nodeCheckResult (idle w.node) cb success).node, flight := w.flight.eraseIdx k }
    | none => w
  | .ended k => { w with flight := w.flight.eraseIdx k }

end Watch

/-- When the probe fails, the successor entry that is cleared is that of the node it was sent
to, and so is the predecessor. -/
structure ClearsProbed (s : NodeSelf) (probe : NodeInfo × CheckCb) : Prop where
  succ : ∀ k, (nodeCheckResult (idle s) probe.2 false).node.successor k ≠ s.successor k →
    s.successor k = probe.1
  pred : s.hasPred = true → (nodeCheckResult (idle s) probe.2 false).node.hasPred = false →
    s.predecessor = probe.1

namespace Watch

/-- The failure of any probe in flight clears the node it was sent to, and no other. -/
def Right (w : Watch) : Prop :=
  ∀ probe ∈ w.flight, ClearsProbed w.node probe

/-- In every state of a run the probes in flight clear only whom they were sent to. -/
def RunsRight : Watch → List WatchStep → Prop
  | w, [] => w.Right
  | w, step :: steps => w.Right ∧ RunsRight (w.step step) steps

/-- No probe of the successor entry `k` is in flight to a node other than `n`, which is put
into the entry; or `n` is the null node. -/
def MayPutSucc (w : Watch) (k : Fin numOfSuccs) (n : NodeInfo) : Prop :=
  ∀ dest, (dest, CheckCb.succResult k.val) ∈ w.flight → n = dest ∨ n = nullNode

/-- No probe of the predecessor is in flight to a node other than `n`. -/
def MayPutPred (w : Watch) (n : NodeInfo) : Prop :=
  ∀ dest, (dest, CheckCb.predResult) ∈ w.flight → n = dest

end Watch

/-- The rule by which a node takes the one that notifies it for its predecessor. -/
def TakesPred (s : NodeSelf) (n : NodeInfo) : Prop :=
  s.hasPred = false ∨ nodeIdInRange n.id s.predecessor.id s.self.id = true
    ∨ s.predecessor.id = s.self.id

/-- A step puts no other node into an entry while a probe of the entry is in flight: neither
the node itself when it creates a network, nor the successor found for joining one, nor the
reply for a successor entry, nor the predecessor of the first successor when it is adopted,
nor a node that notifies. -/
def WatchStep.Keeps (w : Watch) : WatchStep → Prop
  | .create _ => w.MayPutSucc 0 w.node.self ∧ w.MayPutPred w.node.self
  | .found { cb := .updateSuccsFound i, node := n, hops := _ } =>
    ∀ k : Fin numOfSuccs, i = k.val → w.MayPutSucc k n
  | .found { cb := .stabilizeSpFound, node := n, hops := _ } =>
    Adopts w.node n → w.MayPutSucc 0 n
  | .found { cb := .networkJoinSuccFound _, node := n, hops := _ } => w.MayPutSucc 0 n
  | .notified n => TakesPred w.node n → w.MayPutPred n
  | _ => True

/-- The steps of a run put no other node into an entry while a probe of it is in flight. -/
def Watch.RunKeeps : Watch → List WatchStep → Prop
  | _, [] => True
  | w, step :: steps => step.Keeps w ∧ RunKeeps (w.step step) steps

/-! ### When a probe clears whom it was sent to -/

section

variable {s : NodeSelf} {dest : NodeInfo}

/-- The failure of a probe of the successor entry `sn` clears the node it was sent to, when
that is the one in the entry, and nobody, when there is none. -/
theorem clearsProbed_succ_iff {sn : ℤ} :
  ClearsProbed s (dest, .succResult sn)
    ↔ ∀ k : Fin numOfSuccs, sn = k.val → s.successor k = dest ∨ s.successor k = nullNode
  := by
  have hclear : ∀ k, (nodeCheckResult (idle s) (.succResult sn) false).node.successor k
      = if sn = k.val then nullNode else s.successor k :=
    s.setSuccessor_successor sn nullNode
  constructor
  · intro h k hk
    by_cases hnull : s.successor k = nullNode
    · exact Or.inr hnull
    · left
      apply h.succ k
      rw [hclear, if_pos hk]
      exact Ne.symm hnull
  · intro h
    constructor
    · intro k hk
      rw [hclear] at hk
      split_ifs at hk with hsn
      · exact (h k hsn).resolve_right (Ne.symm hk)
      · exact absurd rfl hk
    · intro htrue hfalse
      have hkept : (nodeCheckResult (idle s) (.succResult sn) false).node.hasPred = s.hasPred :=
        (s.setSuccessor_predecessor sn nullNode).2
      rw [hkept, htrue] at hfalse
      cases hfalse

theorem clearsProbed_pred_iff :
  ClearsProbed s (dest, .predResult) ↔ (s.hasPred = true → s.predecessor = dest)
  := by
  constructor
  · intro h hpred
    exact h.pred hpred rfl
  · intro h
    constructor
    · intro k hk
      exact absurd rfl hk
    · intro hpred _
      exact h hpred

end

namespace Watch

variable {w : Watch}

/-- The probes in flight are right exactly when what is in every entry might be put there
now. -/
theorem right_iff :
  w.Right ↔ (∀ k, w.MayPutSucc k (w.node.successor k))
    ∧ (w.node.hasPred = true → w.MayPutPred w.node.predecessor)
  := by
  constructor
  · intro h
    constructor
    · intro k dest hin
      exact clearsProbed_succ_iff.mp (h _ hin) k rfl
    · intro hpred dest hin
      exact clearsProbed_pred_iff.mp (h _ hin) hpred
  · rintro ⟨hsucc, hpred⟩ ⟨dest, cb⟩ hin
    cases cb with
    | predResult => exact clearsProbed_pred_iff.mpr fun h => hpred h dest hin
    | succResult sn =>
      apply clearsProbed_succ_iff.mpr
      rintro k rfl
      exact hsucc k dest hin

end Watch

/-! ### Operations that put nobody into an entry -/

/-- The second process comes from the first by an operation that leaves the successor array
and the predecessor as they are, and sends no probe. -/
structure KeepsEntries (p q : Process Outbox) : Prop where
  successor : q.node.successor = p.node.successor
  predecessor : q.node.predecessor = p.node.predecessor
  hasPred : q.node.hasPred = p.node.hasPred
  probes : probesOf q.net.sent = probesOf p.net.sent

namespace KeepsEntries

variable {p q : Process Outbox}

theorem refl (p : Process Outbox) :
  KeepsEntries p p
  := ⟨rfl, rfl, rfl, rfl⟩

/-- A step more that changes neither the node nor the network. -/
theorem then_same (h : KeepsEntries p q) {q' : Process Outbox} (hnode : q'.node = q.node)
    (hnet : q'.net = q.net) :
  KeepsEntries p q'
  := by
  obtain ⟨hsucc, hpred, hhas, hprobes⟩ := h
  constructor
  · rw [hnode, hsucc]
  · rw [hnode, hpred]
  · rw [hnode, hhas]
  · rw [hnet, hprobes]

theorem lock (h : KeepsEntries p q) :
  KeepsEntries p q.lock
  := h.then_same rfl rfl

theorem unlock (h : KeepsEntries p q) :
  KeepsEntries p q.unlock
  := h.then_same rfl rfl

theorem touch (h : KeepsEntries p q) (i : ℤ) :
  KeepsEntries p (q.touch i)
  := h.then_same rfl rfl

end KeepsEntries

@[simp]
theorem probesOf_append (l l' : List Sent) :
  probesOf (l ++ l') = probesOf l ++ probesOf l'
  := List.filterMap_append ..

section

variable {p q : Process Outbox}

theorem nodeFindSuccessorRemote_keepsEntries (h : KeepsEntries p q) (n : NodeInfo) (id : HashType)
    (cb : FoundCb) :
  KeepsEntries p (nodeFindSuccessorRemote q n id cb).2
  := by
  refine ⟨h.successor, h.predecessor, h.hasPred, ?_⟩
  rw [← h.probes]
  simp [nodeFindSuccessorRemote, Remote.findSuccessorRemote, probesOf]

theorem nodeUpdateSucc_keepsEntries (h : KeepsEntries p q) (succNum : ℤ) :
  KeepsEntries p (nodeUpdateSucc q succNum)
  := by
  unfold nodeUpdateSucc
  dsimp only
  split
  · exact h.touch succNum
  · exact nodeFindSuccessorRemote_keepsEntries (h.touch succNum) _ _ _

/-- The reply for a successor entry is written into it, and that is all. -/
theorem nodeUpdateSuccsFound_keepsEntries (p : Process Outbox) (n : NodeInfo) (i : ℤ) :
  KeepsEntries (p.lock.setSucc i n) (nodeUpdateSuccsFound p n i)
  := by
  unfold nodeUpdateSuccsFound
  dsimp only
  apply KeepsEntries.unlock
  split
  · exact nodeUpdateSucc_keepsEntries (KeepsEntries.refl _) i
  · exact KeepsEntries.refl _

/-- A passive callback puts the node that it is handed into no entry. -/
theorem nodeFound_keepsEntries {cb : FoundCb} (hcb : cb.Passive) (h : KeepsEntries p q)
    (n : NodeInfo) (hops : Int16) :
  KeepsEntries p (nodeFound q { cb := cb, node := n, hops := hops })
  := by
  obtain ⟨hsucc, hpred, hhas, hprobes⟩ := h
  cases cb with
  | fingerUpdate k => exact ⟨hsucc, hpred, hhas, hprobes⟩
  | successorFoundForRemote d =>
    refine ⟨hsucc, hpred, hhas, ?_⟩
    rw [← hprobes]
    simp [nodeFound, nodeSuccessorFoundForRemote, Remote.successorFoundForRemote, probesOf]
  | app a => exact ⟨hsucc, hpred, hhas, hprobes⟩
  | freed =>
    refine ⟨hsucc, hpred, hhas, ?_⟩
    rw [← hprobes]
    simp [nodeFound, Remote.useFreed, probesOf]
  | _ => exact absurd hcb not_false

theorem nodeFindSuccessor_keepsEntries (h : KeepsEntries p q) (id : HashType) {cb : FoundCb}
    (hcb : cb.Passive) :
  KeepsEntries p (nodeFindSuccessor q id cb).2
  := by
  by_cases heq : q.node.self.id = id
  · rw [nodeFindSuccessor_self cb heq]
    have hself := nodeFound_keepsEntries hcb h q.node.self 0
    exact (nodeFound_keepsEntries hcb.called (hself.touch _) _ 0).unlock
  · by_cases hans : q.node.Answers id
    · rw [nodeFindSuccessor_answer cb heq hans]
      exact (nodeFound_keepsEntries hcb (h.lock.touch _) _ 0).unlock
    · obtain ⟨q', hnode, hnet, -, hq⟩ := nodeFindSuccessor_forward cb heq hans
      rw [hq]
      exact nodeFindSuccessorRemote_keepsEntries (h.then_same hnode hnet) _ id cb

theorem nodeFixFingers_keepsEntries (h : KeepsEntries p q) :
  KeepsEntries p (nodeFixFingers q)
  := by
  rw [nodeFixFingers]
  generalize List.range idBits = fnums
  induction fnums generalizing q with
  | nil => exact h
  | cons fnum fnums ih =>
    apply ih
    unfold nodeFixAFinger
    dsimp only
    split
    · exact h
    · exact nodeFindSuccessor_keepsEntries h _ trivial

theorem nodeNetworkStabalize_keepsEntries (h : KeepsEntries p q) :
  KeepsEntries p (nodeNetworkStabalize q)
  := by
  refine ⟨h.successor, h.predecessor, h.hasPred, ?_⟩
  rw [← h.probes]
  simp [nodeNetworkStabalize, nodeGetPredecessorRemote, Remote.getPredecessorRemote, probesOf]

theorem nodeUpdateSuccs_keepsEntries (h : KeepsEntries p q) :
  KeepsEntries p (nodeUpdateSuccs q)
  := (nodeUpdateSucc_keepsEntries h.lock _).unlock

theorem nodeNetworkJoined_keepsEntries (h : KeepsEntries p q) (joinedCbArg : ℕ) :
  KeepsEntries p (nodeNetworkJoined q joinedCbArg)
  := by
  apply nodeFixFingers_keepsEntries
  apply nodeUpdateSuccs_keepsEntries
  apply nodeNetworkStabalize_keepsEntries
  exact h.then_same rfl rfl

end

/-- The probes among those sent are each sent to the node in the successor entry they are
for. -/
def SuccProbes (s : NodeSelf) (sent : List Sent) : Prop :=
  ∀ probe ∈ probesOf sent, ∃ k : Fin numOfSuccs, probe = (s.successor k, .succResult k.val)

theorem nodeCheckNode_succProbes {p : Process Outbox} (k : Fin numOfSuccs)
    (h : SuccProbes p.node p.net.sent) :
  SuccProbes p.node (nodeCheckNode p (p.node.successor k) (.succResult k.val)).net.sent
  := by
  have hsent : probesOf (nodeCheckNode p (p.node.successor k) (.succResult k.val)).net.sent
      = probesOf p.net.sent ++ [(p.node.successor k, .succResult k.val)] := by
    simp [nodeCheckNode, Remote.checkNode, probesOf]
  intro probe hin
  rw [hsent] at hin
  rcases List.mem_append.mp hin with hin | hin
  · exact h probe hin
  · use k, List.mem_singleton.mp hin

theorem nodeCheckSuccessors_succProbes {p : Process Outbox} (h : SuccProbes p.node p.net.sent) :
  (nodeCheckSuccessors p).node = p.node ∧ SuccProbes p.node (nodeCheckSuccessors p).net.sent
  := by
  rw [nodeCheckSuccessors]
  generalize List.finRange numOfSuccs = is
  induction is generalizing p with
  | nil => exact ⟨rfl, h⟩
  | cons i is ih =>
    rw [List.foldl_cons]
    dsimp only
    split_ifs
    · exact ih (nodeCheckNode_succProbes (p := p.touch i.val) i h)
    · exact ih (p := p.touch i.val) h

namespace Watch

variable {w w' : Watch}

/-- With the same probes in flight, a state is right when what is in its entries might be put
there before. -/
theorem right_iff_of_flight (hflight : w'.flight = w.flight) :
  w'.Right ↔ (∀ k, w.MayPutSucc k (w'.node.successor k))
    ∧ (w'.node.hasPred = true → w.MayPutPred w'.node.predecessor)
  := by
  rw [right_iff]
  simp only [MayPutSucc, MayPutPred, hflight]

/-- What is in the entries is still right when an entry is written, exactly when the node
written might be put there. -/
theorem right_iff_of_put (hw : w.Right) (hflight : w'.flight = w.flight) {i : ℤ} {n : NodeInfo}
    (hsucc : w'.node.successor = (w.node.setSuccessor i n).successor)
    (hpred : w'.node.predecessor = w.node.predecessor) (hhas : w'.node.hasPred = w.node.hasPred) :
  w'.Right ↔ ∀ k : Fin numOfSuccs, i = k.val → w.MayPutSucc k n
  := by
  obtain ⟨hsuccs, hpreds⟩ := right_iff.mp hw
  rw [right_iff_of_flight hflight, hsucc, hpred, hhas]
  constructor
  · rintro ⟨h, -⟩ k hk
    have := h k
    rwa [NodeSelf.setSuccessor_successor, if_pos hk] at this
  · intro h
    refine ⟨?_, hpreds⟩
    intro k
    rw [NodeSelf.setSuccessor_successor]
    split_ifs with hk
    · exact h k hk
    · exact hsuccs k

/-- An operation that puts nobody into an entry and sends no probe leaves all probes right. -/
theorem right_of_keepsEntries (hw : w.Right) {q : Process Outbox}
    (h : KeepsEntries (idle w.node) q) :
  (w.after q).Right
  := by
  have hflight : (w.after q).flight = w.flight := by
    rw [after, h.probes]
    simp [probesOf]
  rw [right_iff_of_flight hflight]
  obtain ⟨hsuccs, hpreds⟩ := right_iff.mp hw
  constructor
  · intro k
    have hk := hsuccs k
    rwa [show (w.after q).node.successor = w.node.successor from h.successor]
  · rw [show (w.after q).node.hasPred = w.node.hasPred from h.hasPred,
      show (w.after q).node.predecessor = w.node.predecessor from h.predecessor]
    exact hpreds

/-- When entries are cleared, and probes are no longer in flight, those that are stay right. -/
theorem right_of_cleared (hw : w.Right) (hflight : ∀ probe ∈ w'.flight, probe ∈ w.flight)
    (hsucc : ∀ k, w'.node.successor k = w.node.successor k ∨ w'.node.successor k = nullNode)
    (hpred : w'.node.hasPred = true →
      w.node.hasPred = true ∧ w'.node.predecessor = w.node.predecessor) :
  w'.Right
  := by
  obtain ⟨hsuccs, hpreds⟩ := right_iff.mp hw
  apply right_iff.mpr
  constructor
  · intro k dest hin
    rcases hsucc k with hk | hk
    · rw [hk]
      exact hsuccs k dest (hflight _ hin)
    · exact Or.inr hk
  · intro hhas dest hin
    obtain ⟨hhas', hpred'⟩ := hpred hhas
    rw [hpred']
    exact hpreds hhas' dest (hflight _ hin)

/-- Probes sent to whom they clear leave all probes right. -/
theorem right_of_probed (hw : w.Right) {q : Process Outbox} (hnode : q.node = w.node)
    (hsent : ∀ probe ∈ probesOf q.net.sent, ClearsProbed w.node probe) :
  (w.after q).Right
  := by
  intro probe hin
  rw [show (w.after q).node = w.node from hnode]
  rcases List.mem_append.mp hin with hin | hin
  · exact hw probe hin
  · exact hsent probe hin

/-- Putting a node into the first entry concerns the probes of the first entry. -/
theorem mayPutSucc_zero_iff {n : NodeInfo} :
  (∀ k : Fin numOfSuccs, (0 : ℤ) = k.val → w.MayPutSucc k n) ↔ w.MayPutSucc 0 n
  := by
  constructor
  · intro h
    exact h 0 rfl
  · intro h k hk
    obtain rfl : k = 0 := Fin.ext (Int.natCast_eq_zero.mp hk.symm)
    exact h

/-- The state that a node is in after it has created a network. -/
theorem create_right_iff (hw : w.Right) (arg : ℕ) :
  (w.step (.create arg)).Right ↔ w.MayPutSucc 0 w.node.self ∧ w.MayPutPred w.node.self
  := by
  have hflight : (w.step (.create arg)).flight = w.flight := List.append_nil _
  have hsucc : ∀ k, (w.step (.create arg)).node.successor k
      = if (0 : ℤ) = k.val then w.node.self else w.node.successor k :=
    w.node.setSuccessor_successor 0 w.node.self
  have hpred : (w.step (.create arg)).node.predecessor = w.node.self := rfl
  have hhas : (w.step (.create arg)).node.hasPred = true := rfl
  rw [right_iff_of_flight hflight, hpred, hhas, ← mayPutSucc_zero_iff]
  constructor
  · rintro ⟨hsuccs, hpreds⟩
    refine ⟨?_, hpreds rfl⟩
    intro k hk
    have := hsuccs k
    rwa [hsucc, if_pos hk] at this
  · rintro ⟨hzero, hpreds⟩
    refine ⟨?_, fun _ => hpreds⟩
    intro k
    rw [hsucc]
    split_ifs with hk
    · exact hzero k hk
    · exact (right_iff.mp hw).1 k

/-- The state of a node that has been told the predecessor of its first successor. -/
theorem stabilizeSpFound_right_iff (hw : w.Right) (n : NodeInfo) (hops : Int16) :
  (w.step (.found { cb := .stabilizeSpFound, node := n, hops := hops })).Right
    ↔ (Adopts w.node n → w.MayPutSucc 0 n)
  := by
  have heq := nodeStabilizeSpFound_eq ((idle w.node).emit (.found .stabilizeSpFound n hops)) n
  obtain ⟨hnode, hnet, -⟩ := heq
  generalize hw' : w.step (.found { cb := .stabilizeSpFound, node := n, hops := hops }) = w'
  have hnode' : w'.node = adopted w.node n := by
    rw [← hw']
    exact hnode
  have hflight : w'.flight = w.flight := by
    rw [← hw']
    simp only [step, after, nodeFound, hnet]
    simp [Remote.notifyNode, probesOf]
  by_cases hadopts : Adopts w.node n
  · have hput := right_iff_of_put hw hflight (i := 0) (n := n)
      (by rw [hnode', adopted, if_pos hadopts, NodeSelf.setSuccessor_zero])
      (by rw [hnode', (adopted_rest w.node n).1])
      (by rw [hnode', (adopted_rest w.node n).2.1])
    rw [hput, mayPutSucc_zero_iff]
    simp [hadopts]
  · have hsame : w'.node = w.node := by rw [hnode', adopted, if_neg hadopts]
    have hright : w'.Right := by
      rw [right_iff_of_flight hflight, hsame]
      exact right_iff.mp hw
    simp [hadopts, hright]

/-- The state of a node that has got the reply for a successor entry. -/
theorem updateSuccsFound_right_iff (hw : w.Right) (n : NodeInfo) (i : ℤ) (hops : Int16) :
  (w.step (.found { cb := .updateSuccsFound i, node := n, hops := hops })).Right
    ↔ ∀ k : Fin numOfSuccs, i = k.val → w.MayPutSucc k n
  := by
  let p := (idle w.node).emit (.found (.updateSuccsFound i) n hops)
  have hnode : (nodeUpdateSuccsFound p n i).node = w.node.setSuccessor i n :=
    nodeUpdateSuccsFound_node p n i
  have hprobes : probesOf (nodeUpdateSuccsFound p n i).net.sent = [] :=
    (nodeUpdateSuccsFound_keepsEntries p n i).probes
  obtain ⟨hpred, hhas⟩ := w.node.setSuccessor_predecessor i n
  apply right_iff_of_put hw
  · rw [step, after]
    simp only [nodeFound]
    rw [hprobes, List.append_nil]
  · exact congrArg NodeSelf.successor hnode
  · exact (congrArg NodeSelf.predecessor hnode).trans hpred
  · exact (congrArg NodeSelf.hasPred hnode).trans hhas

/-- The state of a node that has been notified. -/
theorem notified_right_iff (hw : w.Right) (n : NodeInfo) :
  (w.step (.notified n)).Right ↔ (TakesPred w.node n → w.MayPutPred n)
  := by
  obtain ⟨hsuccs, hpreds⟩ := right_iff.mp hw
  have htakes : (!w.node.hasPred || nodeIdInRange n.id w.node.predecessor.id w.node.self.id
      || nodeIdCompare w.node.predecessor.id w.node.self.id == 0) = true ↔ TakesPred w.node n := by
    simp [TakesPred, or_assoc]
  have hflight : (w.step (.notified n)).flight = w.flight := rfl
  have hnode : (w.step (.notified n)).node = nodeNotified w.node n := rfl
  rw [right_iff_of_flight hflight, hnode, nodeNotified]
  split_ifs with h
  · rw [htakes] at h
    simp [h, hsuccs]
  · rw [htakes] at h
    simp only [h, false_imp_iff, iff_true]
    exact ⟨hsuccs, hpreds⟩

/-- The state of a node that was handed the result of a probe: entries may be cleared. -/
theorem nodeCheckResult_cleared (s : NodeSelf) (cb : CheckCb) (success : Bool) :
  let s' := (nodeCheckResult (idle s) cb success).node
  (∀ k, s'.successor k = s.successor k ∨ s'.successor k = nullNode)
    ∧ (s'.hasPred = true → s.hasPred = true ∧ s'.predecessor = s.predecessor)
  := by
  cases success with
  | true =>
    have hsame : (nodeCheckResult (idle s) cb true).node = s := by cases cb <;> rfl
    rw [hsame]
    exact ⟨fun k => Or.inl rfl, fun h => ⟨h, rfl⟩⟩
  | false =>
    cases cb with
    | predResult =>
      refine ⟨fun k => Or.inl rfl, ?_⟩
      intro h
      cases h
    | succResult sn =>
      have hnode : (nodeCheckResult (idle s) (.succResult sn) false).node
          = s.setSuccessor sn nullNode := rfl
      obtain ⟨hpred, hhas⟩ := s.setSuccessor_predecessor sn nullNode
      rw [hnode]
      dsimp only
      rw [hpred, hhas]
      refine ⟨?_, fun h => ⟨h, rfl⟩⟩
      intro k
      rw [NodeSelf.setSuccessor_successor]
      split_ifs
      · exact Or.inr rfl
      · exact Or.inl rfl

/-- The state of a node that has got the result of a probe in flight. -/
theorem outcome_right (hw : w.Right) (k : ℕ) (success : Bool) :
  (w.step (.outcome k success)).Right
  := by
  rw [step]
  split
  · rename_i dest cb hk
    obtain ⟨hsucc, hpred⟩ := nodeCheckResult_cleared w.node cb success
    apply right_of_cleared hw ?_ hsucc hpred
    intro probe hin
    exact List.mem_of_mem_eraseIdx hin
  · exact hw

/-- The state of a node that joins a network: its predecessor counts no longer. -/
theorem join_right (hw : w.Right) (contact : NodeInfo) (arg : ℕ) :
  (w.step (.join contact arg)).Right
  := by
  have hflight : (w.step (.join contact arg)).flight = w.flight := List.append_nil _
  apply right_of_cleared hw
  · intro probe hin
    rwa [hflight] at hin
  · intro k
    exact Or.inl rfl
  · intro hhas
    cases hhas

/-- The state of a node that has probed its successors. -/
theorem checkSuccs_right (hw : w.Right) :
  (w.step .checkSuccs).Right
  := by
  have hnone : SuccProbes (idle w.node).node (idle w.node).net.sent := by simp [SuccProbes, probesOf]
  obtain ⟨hnode, hsent⟩ := nodeCheckSuccessors_succProbes hnone
  apply right_of_probed hw hnode
  intro probe hin
  obtain ⟨k, rfl⟩ := hsent probe hin
  apply clearsProbed_succ_iff.mpr
  intro j hj
  obtain rfl : k = j := Fin.ext (Int.ofNat.inj hj)
  exact Or.inl rfl

/-- The state of a node that has probed its predecessor. -/
theorem checkPred_right (hw : w.Right) :
  (w.step .checkPred).Right
  := by
  have hsent : (nodeCheckPredecessor (idle w.node)).node = w.node
      ∧ ∀ probe ∈ probesOf (nodeCheckPredecessor (idle w.node)).net.sent,
        probe = (w.node.predecessor, .predResult) := by
    rw [nodeCheckPredecessor]
    split_ifs
    · simp [probesOf]
    · simp [nodeCheckNode, Remote.checkNode, probesOf]
  apply right_of_probed hw hsent.1
  intro probe hin
  rw [hsent.2 probe hin]
  exact clearsProbed_pred_iff.mpr fun _ => rfl

/-- The state of a node that has been handed a found node. -/
theorem found_right_iff (hw : w.Right) (data : NodeFoundCbData) :
  (w.step (.found data)).Right ↔ (WatchStep.found data).Keeps w
  := by
  obtain ⟨cb, n, hops⟩ := data
  have hpassive : cb.Passive →
      (w.step (.found { cb := cb, node := n, hops := hops })).Right := fun hcb =>
    right_of_keepsEntries hw (nodeFound_keepsEntries hcb (KeepsEntries.refl _) n hops)
  cases cb with
  | networkJoinSuccFound arg =>
    have hput : (w.step (.found { cb := .networkJoinSuccFound arg, node := n, hops := hops })).Right
        ↔ ∀ k : Fin numOfSuccs, (0 : ℤ) = k.val → w.MayPutSucc k n :=
      right_iff_of_put hw (List.append_nil _) rfl rfl rfl
    rw [hput, mayPutSucc_zero_iff]
    rfl
  | stabilizeSpFound => exact stabilizeSpFound_right_iff hw n hops
  | updateSuccsFound i => exact updateSuccsFound_right_iff hw n i hops
  | fingerUpdate k => exact iff_of_true (hpassive trivial) trivial
  | successorFoundForRemote d => exact iff_of_true (hpassive trivial) trivial
  | app arg => exact iff_of_true (hpassive trivial) trivial
  | freed => exact iff_of_true (hpassive trivial) trivial

/-- A step from a state in which all probes in flight are right leaves them so, exactly when
it puts no other node into an entry that is being probed. -/
theorem step_right_iff (hw : w.Right) (st : WatchStep) :
  (w.step st).Right ↔ st.Keeps w
  := by
  cases st with
  | create arg => exact create_right_iff hw arg
  | join contact arg => exact iff_of_true (join_right hw contact arg) trivial
  | joined arg =>
    apply iff_of_true _ trivial
    apply right_of_keepsEntries hw
    apply nodeNetworkJoined_keepsEntries (KeepsEntries.refl _) arg
  | stabilise =>
    apply iff_of_true _ trivial
    apply right_of_keepsEntries hw
    apply nodeNetworkStabalize_keepsEntries (KeepsEntries.refl _)
  | updateSuccs =>
    apply iff_of_true _ trivial
    apply right_of_keepsEntries hw
    apply nodeUpdateSuccs_keepsEntries (KeepsEntries.refl _)
  | fixFingers =>
    apply iff_of_true _ trivial
    apply right_of_keepsEntries hw
    apply nodeFixFingers_keepsEntries (KeepsEntries.refl _)
  | checkSuccs => exact iff_of_true (checkSuccs_right hw) trivial
  | checkPred => exact iff_of_true (checkPred_right hw) trivial
  | lookup id cb hcb =>
    apply iff_of_true _ trivial
    apply right_of_keepsEntries hw
    apply nodeFindSuccessor_keepsEntries (KeepsEntries.refl _) id hcb
  | found data => exact found_right_iff hw data
  | notified n => exact notified_right_iff hw n
  | outcome k success => exact iff_of_true (outcome_right hw k success) trivial
  | ended k =>
    refine iff_of_true ?_ trivial
    intro probe hin
    exact hw probe (List.mem_of_mem_eraseIdx hin)

end Watch

/-! ### Runs -/

/-- From a state in which the probes in flight are right, they are right in every state of a
run exactly when no step of it puts another node into an entry that is being probed. -/
theorem Watch.runsRight_iff_of_right {w : Watch} (steps : List WatchStep) (hw : w.Right) :
  w.RunsRight steps ↔ w.RunKeeps steps
  := by
  induction steps generalizing w with
  | nil => exact iff_of_true hw trivial
  | cons st steps ih =>
    rw [Watch.RunsRight, Watch.RunKeeps, ← Watch.step_right_iff hw st]
    constructor
    · rintro ⟨-, hrest⟩
      have hnext : (w.step st).Right := by
        cases steps with
        | nil => exact hrest
        | cons st' steps => exact hrest.1
      exact ⟨hnext, (ih hnext).mp hrest⟩
    · rintro ⟨hnext, hrest⟩
      exact ⟨hw, (ih hnext).mpr hrest⟩

/-- In a run of a node that starts with no probe in flight, the failure of a probe clears
only the node that the probe was sent to, whenever it comes, exactly when no step of the run
puts another node into an entry while a probe of the entry is in flight. -/
theorem probesRight_iff (s : NodeSelf) (steps : List WatchStep) :
  Watch.RunsRight { node := s, flight := [] } steps
    ↔ Watch.RunKeeps { node := s, flight := [] } steps
  := by
  apply Watch.runsRight_iff_of_right
  intro probe hin
  cases hin

/-- A node creates a network, learns of node `8` as its second successor, and probes it. Node
`4` joins in between and gets into the entry before the probe fails: it is cleared. -/
theorem replaced_successor_cleared :
  ¬ Watch.RunsRight { node := nodeCreate .blank 1 5000, flight := [] }
    [.create 0, .joined 0, .found { cb := .updateSuccsFound 1, node := ⟨8, 7, 5000⟩, hops := 1 },
      .checkSuccs, .updateSuccs,
      .found { cb := .updateSuccsFound 1, node := ⟨4, 9, 5000⟩, hops := 1 }]
  := by
  rintro ⟨-, -, -, -, -, -, h⟩
  have hclears := h (⟨8, 7, 5000⟩, .succResult 1) (by decide +kernel)
  have hentry := clearsProbed_succ_iff.mp hclears 1 rfl
  revert hentry
  decide +kernel
