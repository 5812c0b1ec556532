import LibDht.Node.Adopt
import LibDht.Node.Outbox

/-!
# The indices of the successor array

A run of a node starts with `node_network_create` or `node_network_join` and goes on with
the inputs of `Input`, in any order: timers, lookups, replies to requests that were made,
results of probes that were made, notifications. The network may change in any way between
them.

The indices used on `self->successor` stay in bounds as long as an entry is in use whenever
the array is searched, and the reply to the node in the last entry, which the code would
write behind it, does not come. Neither is checked by the code.
-/

/-- What a running node is given to do. -/
inductive Input (ν : Type) where
  | network (net : ν)
  | joined (joinedCbArg : ℕ)
  | stabilise
  | updateSuccs
  | fixFingers
  | checkSuccs
  | checkPred
  | lookup (id : HashType) (cb : FoundCb)
  | found (data : NodeFoundCbData)
  | checked (cb : CheckCb) (success : Bool)
  | notified (node : NodeInfo)

namespace Process

section Runs

variable {ν : Type} [Remote ν]

/-- What the node does with an input. -/
def input (p : Process ν) : Input ν → Process ν
  | .network net => { p with net := net }
  | .joined arg => nodeNetworkJoined p arg
  | .stabilise => nodeNetworkStabalize p
  | .updateSuccs => nodeUpdateSuccs p
  | .fixFingers => nodeFixFingers p
  | .checkSuccs => nodeCheckSuccessors p
  | .checkPred => nodeCheckPredecessor p
  | .lookup id cb => (nodeFindSuccessor p id cb).2
  | .found data => nodeFound p data
  | .checked cb success => nodeCheckResult p cb success
  | .notified n => { p with node := nodeNotified p.node n }

omit [Remote ν] in
/-- The callbacks of the requests that were made. -/
def askedFor (p : Process ν) : List FoundCb :=
  p.log.filterMap fun
    | .asked cb _ => some cb
    | _ => none

omit [Remote ν] in
/-- The inputs that can come: a reply is to a request that was made, the result of a probe
is of one that was made, and lookups are started by the application or by a request. -/
def Possible (p : Process ν) : Input ν → Prop
  | .found data => data.cb ∈ p.askedFor
  | .checked cb _ => .probed cb ∈ p.log
  | .lookup _ cb => cb.Passive
  | _ => True

omit [Remote ν] in
/-- An input that has the successor array searched comes when an entry is in use, also after
a node has been adopted; and the reply of the node in the last entry does not come. -/
def SuccInUse (p : Process ν) : Input ν → Prop
  | .joined _ | .stabilise | .updateSuccs | .fixFingers | .lookup _ _ => ∃ k, p.node.Alive k
  | .found { cb := .stabilizeSpFound, node := n, hops := _ } =>
    (∃ k, p.node.Alive k) ∧ (Adopts p.node n → n.IP ≠ 0 ∨ ∃ k ≠ 0, p.node.Alive k)
  | .found { cb := .updateSuccsFound k, node := _, hops := _ } => k ≠ numOfSuccs
  | _ => True

/-- The runs of a node whose inputs are all as `ok` says. -/
inductive Run (ok : Process ν → Input ν → Prop) : Process ν → Prop where
  | create (mem : NodeSelf) (id : HashType) (port : UInt16) (net : ν) (arg : ℕ) :
      Run ok (nodeNetworkCreate
        { node := nodeCreate mem id port, net := net, succsLock := false, log := [] } arg).2
  | join (mem : NodeSelf) (id : HashType) (port : UInt16) (net : ν) (contact : NodeInfo) (arg : ℕ) :
      Run ok (nodeNetworkJoin
        { node := nodeCreate mem id port, net := net, succsLock := false, log := [] } contact arg)
  | next {p : Process ν} (h : Run ok p) {i : Input ν} (hpossible : p.Possible i) (hok : ok p i) :
      Run ok (p.input i)

end Runs

end Process

/-! ### Events in bounds -/

/-- A reply with this callback is written at an index of the array, or just behind it. -/
def FoundCb.InBounds : FoundCb → Prop
  | .updateSuccsFound k => 1 ≤ k ∧ k ≤ numOfSuccs
  | _ => True

/-- The event uses an index of the array, or leads to one. -/
def Event.InBounds : Event → Prop
  | .succIndex i => 0 ≤ i ∧ i < numOfSuccs
  | .asked cb _ => cb.InBounds
  | .probed (.succResult i) => 0 ≤ i ∧ i < numOfSuccs
  | _ => True

/-- All events of the process are in bounds. -/
def Process.Bounded {ν : Type} (p : Process ν) : Prop :=
  ∀ e ∈ p.log, e.InBounds

/-- With an entry in use, the search of the array finds an index of it. -/
theorem nodeFirstAliveSucc_inBounds {s : NodeSelf} (h : ∃ k, s.Alive k) :
  0 ≤ nodeFirstAliveSucc s ∧ nodeFirstAliveSucc s < numOfSuccs
  := by
  rcases nodeFirstAliveSucc_cases s with ⟨-, hdead⟩ | ⟨k, hk, -⟩
  · obtain ⟨k, hk⟩ := h
    exact absurd hk (hdead k)
  · have := k.isLt
    omega

theorem FoundCb.Passive.inBounds {cb : FoundCb} (h : cb.Passive) :
  cb.InBounds
  := by
  cases cb with
  | updateSuccsFound k => exact absurd h not_false
  | _ => trivial

namespace Process.Bounded

variable {ν : Type} {p q : Process ν}

/-- More events, all in bounds. -/
theorem append (h : p.Bounded) {us : List Event} (hus : ∀ e ∈ us, e.InBounds)
    (hq : q.log = p.log ++ us) :
  q.Bounded
  := by
  intro e he
  rw [hq] at he
  rcases List.mem_append.mp he with he | he
  · apply h e he
  · apply hus e he

theorem emit (h : p.Bounded) {e : Event} (he : e.InBounds) :
  (p.emit e).Bounded
  := by
  have hlog : (p.emit e).log = p.log ++ [e] := rfl
  apply h.append _ hlog
  intro e' he'
  rw [List.mem_singleton.mp he']
  apply he

theorem lock (h : p.Bounded) :
  p.lock.Bounded
  := by
  intro e he
  apply h.emit (e := .lock p.succsLock) trivial e he

theorem unlock (h : p.Bounded) :
  p.unlock.Bounded
  := by
  intro e he
  apply h.emit (e := .unlock p.succsLock) trivial e he

theorem setSucc (h : p.Bounded) {i : ℤ} (hi : 0 ≤ i ∧ i < numOfSuccs) (n : NodeInfo) :
  (p.setSucc i n).Bounded
  := by
  intro e he
  apply h.emit (e := .succIndex i) hi e he

/-- Events of the mutex and of indices that are all in bounds. -/
theorem reads (h : p.Bounded) {us : List Event} {is : List ℤ} (hus : ∀ e ∈ us, e.Reads is)
    (his : ∀ i ∈ is, 0 ≤ i ∧ i < numOfSuccs) (hq : q.log = p.log ++ us) :
  q.Bounded
  := by
  apply h.append _ hq
  intro e he
  have hread := hus e he
  cases e with
  | lock held => trivial
  | unlock held => trivial
  | succIndex i => apply his i hread
  | _ => exact absurd hread not_false

/-! ### Operations -/

variable [Remote ν]

theorem findSuccessorRemote (h : p.Bounded) (n : NodeInfo) (id : HashType) {cb : FoundCb}
    (hcb : cb.InBounds) :
  (nodeFindSuccessorRemote p n id cb).2.Bounded
  := by
  intro e he
  apply h.emit (e := .asked cb _) hcb e he

theorem updateSucc (h : p.Bounded) {k : ℤ} (hk : 0 ≤ k ∧ k < numOfSuccs) :
  (nodeUpdateSucc p k).Bounded
  := by
  have htouch : (p.touch k).Bounded := h.emit (e := .succIndex k) hk
  unfold nodeUpdateSucc
  dsimp only
  split_ifs
  · apply htouch
  · apply htouch.findSuccessorRemote
    simp only [FoundCb.InBounds]
    omega

theorem updateSuccs (h : p.Bounded) (halive : ∃ k, p.node.Alive k) :
  (nodeUpdateSuccs p).Bounded
  := (h.lock.updateSucc (nodeFirstAliveSucc_inBounds halive)).unlock

theorem stabalize (h : p.Bounded) (halive : ∃ k, p.node.Alive k) :
  (nodeNetworkStabalize p).Bounded
  := by
  have htouch : (p.touch (nodeFirstAliveSucc p.node)).Bounded :=
    h.emit (e := .succIndex _) (nodeFirstAliveSucc_inBounds halive)
  intro e he
  apply htouch.emit (e := .asked .stabilizeSpFound 0) trivial e he

/-- A reply is handed on that the conditions allow. -/
theorem found (h : p.Bounded) {data : NodeFoundCbData} (hcb : data.cb.InBounds)
    (hok : p.SuccInUse (.found data)) :
  (nodeFound p data).Bounded
  := by
  obtain ⟨cb, n, hops⟩ := data
  have hemit : (p.emit (.found cb n hops)).Bounded := h.emit trivial
  cases cb with
  | networkJoinSuccFound arg =>
    have hset : ((p.emit (.found (.networkJoinSuccFound arg) n hops)).setSucc 0 n).Bounded :=
      hemit.setSucc (by decide) n
    unfold nodeFound nodeNetworkJoinSuccFound
    dsimp only
    split_ifs
    · apply hset.emit (e := .joinActivated arg) trivial
    · apply hset
  | stabilizeSpFound =>
    obtain ⟨halive, hadopt⟩ := hok
    obtain ⟨-, -, us, hlog, hus⟩ :=
      nodeStabilizeSpFound_eq (p.emit (.found .stabilizeSpFound n hops)) n
    apply hemit.reads hus _ hlog
    have hafter : ∃ k, (adopted p.node n).Alive k := by
      rw [adopted]
      split_ifs with hyes
      · rcases hadopt hyes with hIP | ⟨k, hk, hkalive⟩
        · use 0
          simpa [NodeSelf.Alive] using hIP
        · use k
          simpa [NodeSelf.Alive, Function.update_of_ne hk] using hkalive
      · apply halive
    have h₁ := nodeFirstAliveSucc_inBounds halive
    have h₂ := nodeFirstAliveSucc_inBounds hafter
    simp only [List.mem_cons, List.not_mem_nil, or_false, Process.emit_node]
    rintro i (rfl | rfl | rfl)
    · apply h₁
    · decide
    · apply h₂
  | updateSuccsFound k =>
    have hk : 0 ≤ k ∧ k < numOfSuccs := by
      have hne : k ≠ numOfSuccs := hok
      have := hcb.1
      have := hcb.2
      omega
    have hset := hemit.lock.setSucc hk n
    unfold nodeFound nodeUpdateSuccsFound
    dsimp only
    split_ifs
    · apply (hset.updateSucc hk).unlock
    · apply hset.unlock
  | fingerUpdate k => exact hemit
  | successorFoundForRemote d => exact hemit
  | app arg => exact hemit
  | freed => exact hemit

/-- A lookup keeps the successor array, and uses one index of it, the same each time. -/
theorem findSuccessor (h : p.Bounded) (halive : ∃ k, p.node.Alive k) (id : HashType)
    {cb : FoundCb} (hcb : cb.Passive) :
  (nodeFindSuccessor p id cb).2.Bounded
    ∧ (nodeFindSuccessor p id cb).2.node.successor = p.node.successor
  := by
  have hhand : ∀ {q : Process ν} {cb : FoundCb}, cb.Passive → q.Bounded → ∀ n,
      (nodeFound q { cb := cb, node := n, hops := 0 }).Bounded := by
    intro q cb hcb hq n
    apply hq.found hcb.inBounds
    cases cb with
    | stabilizeSpFound => exact absurd hcb not_false
    | updateSuccsFound k => exact absurd hcb not_false
    | _ => trivial
  by_cases hid : p.node.self.id = id
  · rw [nodeFindSuccessor_self cb hid]
    have hself := hhand hcb h p.node.self
    have hsucc := nodeFound_successor hcb p p.node.self 0
    have hidx := nodeFirstAliveSucc_inBounds halive
    rw [← nodeFirstAliveSucc_congr hsucc] at hidx
    constructor
    · apply (hhand hcb.called (hself.emit (e := .succIndex _) hidx) _).unlock
    · exact (nodeFound_successor hcb.called (Process.touch _ _) _ 0).trans hsucc
  · have hidx := nodeFirstAliveSucc_inBounds halive
    by_cases hans : p.node.Answers id
    · rw [nodeFindSuccessor_answer cb hid hans]
      constructor
      · apply (hhand hcb (h.lock.emit (e := .succIndex _) hidx) _).unlock
      · apply nodeFound_successor hcb
    · obtain ⟨q, hnode, -, ⟨us, hlog, hus⟩, hq⟩ := nodeFindSuccessor_forward cb hid hans
      rw [hq]
      constructor
      · apply Bounded.findSuccessorRemote _ _ _ hcb.inBounds
        apply h.reads hus _ hlog
        intro i hi
        rw [List.mem_singleton.mp hi]
        apply hidx
      · rw [nodeFindSuccessorRemote_node, hnode]

theorem fixFingers (h : p.Bounded) (halive : ∃ k, p.node.Alive k) :
  (nodeFixFingers p).Bounded
  := by
  rw [nodeFixFingers]
  induction List.range idBits generalizing p with
  | nil => apply h
  | cons fnum fnums ih =>
    have hstep : (nodeFixAFinger p fnum).Bounded
        ∧ (nodeFixAFinger p fnum).node.successor = p.node.successor := by
      rw [nodeFixAFinger]
      split_ifs
      · exact ⟨h, rfl⟩
      · apply h.findSuccessor halive
        trivial
    apply ih hstep.1
    obtain ⟨k, hk⟩ := halive
    use k
    rw [NodeSelf.Alive, hstep.2]
    apply hk

theorem checkSuccessors (h : p.Bounded) :
  (nodeCheckSuccessors p).Bounded
  := by
  rw [nodeCheckSuccessors]
  induction List.finRange numOfSuccs generalizing p with
  | nil => apply h
  | cons i is ih =>
    have hi : (0 : ℤ) ≤ i.val ∧ (i.val : ℤ) < numOfSuccs := by
      have := i.isLt
      omega
    have htouch : (p.touch i.val).Bounded := h.emit (e := .succIndex _) hi
    apply ih
    dsimp only
    split_ifs
    · intro e he
      apply htouch.emit (e := .probed (.succResult i.val)) hi e he
    · apply htouch

theorem checkPredecessor (h : p.Bounded) :
  (nodeCheckPredecessor p).Bounded
  := by
  rw [nodeCheckPredecessor]
  split_ifs
  · apply h
  · intro e he
    apply h.emit (e := .probed .predResult) trivial e he

omit [Remote ν] in
theorem checkResult (h : p.Bounded) {cb : CheckCb} (hcb : (Event.probed cb).InBounds)
    (success : Bool) :
  (nodeCheckResult p cb success).Bounded
  := by
  have hemit : (p.emit (.checked cb success)).Bounded := h.emit (e := .checked cb success) trivial
  unfold nodeCheckResult
  cases cb with
  | predResult =>
    dsimp only
    split_ifs
    · exact hemit
    · exact hemit
  | succResult i =>
    dsimp only
    split_ifs
    · apply hemit.setSucc hcb
    · apply hemit

theorem networkJoined (h : p.Bounded) (halive : ∃ k, p.node.Alive k) (arg : ℕ) :
  (nodeNetworkJoined p arg).Bounded
  := by
  have hjoined : (p.emit (.joined arg)).Bounded := h.emit (e := .joined arg) trivial
  have hstab := hjoined.stabalize halive
  apply (hstab.updateSuccs halive).fixFingers
  have hnode : (nodeUpdateSuccs (nodeNetworkStabalize (p.emit (.joined arg)))).node = p.node :=
    nodeUpdateSucc_node _ _
  rw [hnode]
  apply halive

/-! ### Runs -/

theorem input (h : p.Bounded) {i : Input ν} (hpossible : p.Possible i) (hok : p.SuccInUse i) :
  (p.input i).Bounded
  := by
  cases i with
  | network net => exact h
  | joined arg => apply h.networkJoined hok
  | stabilise => apply h.stabalize hok
  | updateSuccs => apply h.updateSuccs hok
  | fixFingers => apply h.fixFingers hok
  | checkSuccs => apply h.checkSuccessors
  | checkPred => apply h.checkPredecessor
  | lookup id cb => apply (h.findSuccessor hok id hpossible).1
  | found data =>
    obtain ⟨e, he, hcb⟩ := List.mem_filterMap.mp hpossible
    apply h.found _ hok
    cases e with
    | asked cb rc =>
      rw [← Option.some.inj hcb]
      apply h _ he
    | _ => cases hcb
  | checked cb success => apply h.checkResult (h _ hpossible)
  | notified n => exact h

theorem run (h : p.Run SuccInUse) :
  p.Bounded
  := by
  induction h with
  | create mem id port net arg =>
    have hstart : (⟨nodeCreate mem id port, net, false, []⟩ : Process ν).Bounded :=
      fun e he => by cases he
    have hset := hstart.setSucc (i := 0) (by decide) (nodeCreate mem id port).self
    rw [nodeNetworkCreate]
    dsimp only
    split_ifs
    · intro e he
      apply hset.emit (e := .joinActivated arg) trivial e he
    · exact hset
  | join mem id port net contact arg =>
    have hstart : (⟨{ nodeCreate mem id port with hasPred := false }, net, false, []⟩ :
        Process ν).Bounded := fun e he => by cases he
    apply hstart.findSuccessorRemote
    trivial
  | next _ hpossible hok ih => apply ih.input hpossible hok

end Process.Bounded

/-! ### The indices in every run, and two runs that go out of bounds -/

namespace Process

section

variable {ν : Type} [Remote ν]

/-- In every run in which an entry is in use whenever the successor array is searched, and
the reply of the node in the last entry does not come, every index used on the array is one
of it. -/
theorem succIndex_inBounds {p : Process ν} (h : p.Run SuccInUse) :
  ∀ i, Event.succIndex i ∈ p.log → 0 ≤ i ∧ i < numOfSuccs
  := by
  intro i hi
  apply Bounded.run h _ hi

/-- The inputs come one after the other, each when it can. -/
def Sequence (ok : Process ν → Input ν → Prop) (p : Process ν) : List (Input ν) → Prop
  | [] => True
  | i :: is => (p.Possible i ∧ ok p i) ∧ Sequence ok (p.input i) is

theorem Run.inputs {ok : Process ν → Input ν → Prop} {p : Process ν} (h : p.Run ok)
    {is : List (Input ν)} (his : Sequence ok p is) :
  (is.foldl input p).Run ok
  := by
  induction is generalizing p with
  | nil => apply h
  | cons i is ih => apply ih (h.next his.1.1 his.1.2) his.2

instance (p : Process ν) (i : Input ν) : Decidable (p.Possible i) :=
  match i with
  | .found data => inferInstanceAs (Decidable (data.cb ∈ p.askedFor))
  | .checked cb _ => inferInstanceAs (Decidable (.probed cb ∈ p.log))
  | .lookup _ cb => inferInstanceAs (Decidable cb.Passive)
  | .network _ | .joined _ | .stabilise | .updateSuccs | .fixFingers | .checkSuccs | .checkPred
  | .notified _ => isTrue trivial

instance (p : Process ν) (i : Input ν) : Decidable (p.SuccInUse i) :=
  match i with
  | .joined _ | .stabilise | .updateSuccs | .fixFingers | .lookup _ _ =>
    inferInstanceAs (Decidable (∃ k, p.node.Alive k))
  | .found { cb := .stabilizeSpFound, node := n, hops := _ } =>
    inferInstanceAs (Decidable ((∃ k, p.node.Alive k)
      ∧ (Adopts p.node n → n.IP ≠ 0 ∨ ∃ k ≠ 0, p.node.Alive k)))
  | .found { cb := .updateSuccsFound k, node := _, hops := _ } =>
    inferInstanceAs (Decidable (k ≠ numOfSuccs))
  | .found { cb := .networkJoinSuccFound _, .. } | .found { cb := .fingerUpdate _, .. }
  | .found { cb := .successorFoundForRemote _, .. } | .found { cb := .app _, .. }
  | .found { cb := .freed, .. }
  | .network _ | .checkSuccs | .checkPred | .checked _ _ | .notified _ => isTrue trivial

instance decidableSequence (ok : Process ν → Input ν → Prop) [∀ p i, Decidable (ok p i)]
    (p : Process ν) : (is : List (Input ν)) → Decidable (Sequence ok p is)
  | [] => isTrue trivial
  | i :: is =>
    have := decidableSequence ok (p.input i) is
    inferInstanceAs (Decidable (_ ∧ _))

end

/-- A node that has created a network. -/
def creator : Process Outbox :=
  (nodeNetworkCreate { node := nodeCreate .blank 10 4000, net := ⟨[]⟩, succsLock := false, log := [] }
    0).2

theorem run_creator (ok : Process Outbox → Input Outbox → Prop) :
  creator.Run ok
  := .create .blank 10 4000 (Outbox.mk []) 0

/-- An update round of which all replies come. -/
def fillRound : List (Input Outbox) :=
  .updateSuccs :: (List.range 7).map fun k =>
    .found { cb := .updateSuccsFound (k + 1), node := { id := 20, IP := 2, port := 1 }, hops := 1 }

/-- Probes of the entries below `n` that all fail. -/
def failBelow (n : ℕ) : List (Input Outbox) :=
  .checkSuccs :: (List.range n).map fun k => .checked (.succResult k) false

/-- In an update round, a failed probe of the first entry and a stabilisation the entry `7` is
used, which is in bounds. -/
theorem succIndex_inBounds_creator :
  ∃ i, Event.succIndex i ∈ ((fillRound ++ failBelow 1 ++ [Input.stabilise]).foldl input creator).log
    ∧ 0 ≤ i ∧ i < numOfSuccs
  := by
  have hused : Event.succIndex 7
      ∈ ((fillRound ++ failBelow 1 ++ [Input.stabilise]).foldl input creator).log := by
    decide +kernel
  refine ⟨7, hused, succIndex_inBounds (Run.inputs (run_creator _) ?_) 7 hused⟩
  decide +kernel

/-- When every entry has been cleared the array is read at `-1`; when only the last entry is
in use, an update round ends with a write at `8`. -/
theorem succIndex_outOfBounds :
  (∃ p : Process Outbox, p.Run (fun _ _ => True) ∧ .succIndex (-1) ∈ p.log)
    ∧ ∃ p : Process Outbox, p.Run (fun _ _ => True) ∧ .succIndex numOfSuccs ∈ p.log
  := by
  constructor
  · use (failBelow 1 ++ [Input.stabilise]).foldl input creator
    constructor
    · apply (run_creator _).inputs
      decide +kernel
    · decide +kernel
  · use (fillRound ++ failBelow 7 ++ [Input.updateSuccs, Input.found
      { cb := .updateSuccsFound 8, node := { id := 20, IP := 2, port := 1 }, hops := 1 }]).foldl
      input creator
    constructor
    · apply (run_creator _).inputs
      decide +kernel
    · decide +kernel

end Process
