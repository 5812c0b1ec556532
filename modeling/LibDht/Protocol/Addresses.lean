import LibDht.Node.Acts
import LibDht.Protocol.Ring

/-!
# The addresses in the entries

Every node is at an address and listens on a port. A node knows its port, and `node_create`
takes `127.0.0.1` for its address; the address of a node that notifies is read off its
connection. An entry for another node is right when it carries the address and the port that
the node is at.

Messages are routed by identifier. What a node sends a message to is an entry, so a run also
keeps which entries were dialled: as long as they are right, or a node dials itself, the
node they are for is the one that the message reaches.
-/

open Function

/-- Where the nodes are: the address that the others reach a node at, and its port. -/
structure Places where
  ip : HashType → UInt32
  port : HashType → UInt16

namespace Places

variable (P : Places)

/-- The right entry for the node `m`. -/
def entry (m : HashType) : NodeInfo :=
  { id := m, IP := P.ip m, port := P.port m }

/-- The entry that `node_create` makes the node `m` have for itself. -/
def ownEntry (m : HashType) : NodeInfo :=
  { id := m, IP := 0x7F000001, port := P.port m }

/-- An entry that `i` holds or is handed: null, or for `i` itself, or right. -/
def RightAt (i : HashType) (n : NodeInfo) : Prop :=
  n = nullNode ∨ n.id = i ∨ n = P.entry n.id

/-- A connection that `i` makes to the entry leads to the node that the entry is for. -/
def Reaches (i : HashType) (n : NodeInfo) : Prop :=
  n = P.entry n.id ∨ n = P.ownEntry i

end Places

/-- A network, with the nodes that were handed to callbacks and the entries that were dialled
so far, each with the node that was handed it or dialled it. -/
structure Located where
  net : Net
  handed : List (HashType × NodeInfo)
  dialled : List (HashType × NodeInfo)

/-- The nodes that the events of `i` hand to its callbacks. -/
def handedBy (i : HashType) (log : List Event) : List (HashType × NodeInfo) :=
  log.filterMap fun
    | .found _ n _ => some (i, n)
    | _ => none

/-- The entries that `i` dials. -/
def dialledBy (i : HashType) (sent : List Sent) : List (HashType × NodeInfo) :=
  sent.filterMap fun
    | .findSuccessor dest _ _ | .predecessor dest _ | .notify dest _ _ | .alive dest _ =>
      some (i, dest)
    | .reply _ _ _ | .useFreed => none

namespace Located

/-- The network after the process `i` has run to the state `p`, serving the stack `frames`,
with the messages `kept` left from before. -/
def act (l : Located) (i : HashType) (joined : Bool) (frames : List Frame) (kept : List Msg)
    (p : Process Outbox) : Located where
  net := { l.net with msgs := kept }.act i joined frames p
  handed := l.handed ++ handedBy i p.log
  dialled := l.dialled ++ dialledBy i p.net.sent

/-- One step of the network. A node is created with the port it is at, and joins with a right
entry; its finger table holds null entries and right ones of joined nodes. A notification is
handled with the address of the node it comes from; one that a node sends to itself may come
from `127.0.0.1`. A node hands the entry that it has for
itself only to those that `ok` allows. -/
inductive Step (P : Places) (ok : HashType → List Frame → Prop) : Located → Located → Prop where
  | timer {l : Located} {i : HashType} {s : NodeSelf} (t : Timer)
      (hi : l.net.peer i = some { node := s, joined := true }) :
      Step P ok l (l.act i true [] l.net.msgs (t.fire (idle s)))
  | lookup {l : Located} {i : HashType} {s : NodeSelf} (id : HashType) (arg : ℕ)
      (hi : l.net.peer i = some { node := s, joined := true }) :
      Step P ok l (l.act i true [] l.net.msgs (nodeFindSuccessor (idle s) id (.app arg)).2)
  | join {l : Located} {i : HashType} (mem : NodeSelf) (contact : HashType) (arg : ℕ)
      (hi : l.net.peer i = none) (hc : contact ∈ l.net.Joined)
      (hf : ∀ k, mem.fingerTable k = nullNode
        ∨ ∃ m ∈ l.net.Joined, mem.fingerTable k = P.entry m) :
      Step P ok l (l.act i false [] l.net.msgs
        (nodeNetworkJoin (idle (nodeCreate mem i (P.port i))) (P.entry contact) arg))
  | succRequest {l : Located} {dest id : HashType} {frames : List Frame} {s : NodeSelf} {b : Bool}
      {before after : List Msg} (hm : l.net.msgs = before ++ .succRequest dest id frames :: after)
      (hd : l.net.peer dest = some { node := s, joined := b }) (hne : dest ≠ id)
      (hok : s.Answers id ∧ s.firstSucc = s.self → ok dest frames) :
      Step P ok l (l.act dest b frames (before ++ after) (nodeFindSuccessor (idle s) id relay).2)
  | succReply {l : Located} {node : NodeInfo} {hops : Int16} {f : Frame} {frames : List Frame}
      {s : NodeSelf} {b : Bool} {before after : List Msg}
      (hm : l.net.msgs = before ++ .succReply node hops (f :: frames) :: after)
      (hd : l.net.peer f.owner = some { node := s, joined := b }) :
      Step P ok l (l.act f.owner (b || Net.joins f.cb) frames (before ++ after)
        (nodeFound (idle s) { cb := f.cb, node := node, hops := hops }))
  | predRequest {l : Located} {dest : HashType} {f : Frame} {s : NodeSelf} {b : Bool}
      {before after : List Msg} (hops : Int16)
      (hm : l.net.msgs = before ++ .predRequest dest f :: after)
      (hd : l.net.peer dest = some { node := s, joined := b })
      (hok : s.hasPred = true ∧ s.predecessor = s.self → ok dest [f]) :
      Step P ok l { l with net :=
        { l.net with msgs := before ++ after ++ [.predReply (predAnswer s) hops f] } }
  | predReply {l : Located} {node : NodeInfo} {hops : Int16} {f : Frame} {s : NodeSelf} {b : Bool}
      {before after : List Msg} (hm : l.net.msgs = before ++ .predReply node hops f :: after)
      (hd : l.net.peer f.owner = some { node := s, joined := b }) :
      Step P ok l (l.act f.owner b [] (before ++ after)
        (nodeFound (idle s) { cb := f.cb, node := node, hops := hops }))
  | notify {l : Located} {dest id : HashType} {port : UInt16} {s : NodeSelf} {b : Bool}
      {before after : List Msg} (ip : UInt32) (hip : ip ≠ 0)
      (hfrom : ip = P.ip id ∨ id = dest ∧ ip = 0x7F000001)
      (hm : l.net.msgs = before ++ .notify dest id port :: after)
      (hd : l.net.peer dest = some { node := s, joined := b }) :
      Step P ok l (l.act dest b [] (before ++ after)
        (idle (nodeNotified s { id := id, IP := ip, port := port })))
  | lose {l : Located} {m : Msg} {before after : List Msg}
      (hm : l.net.msgs = before ++ m :: after) :
      Step P ok l { l with net := { l.net with msgs := before ++ after } }

/-- The networks that a run reaches after the node `c` has created one. -/
inductive Reachable (P : Places) (ok : HashType → List Frame → Prop) (c : HashType) :
    Located → Prop where
  | created (mem : NodeSelf) (arg : ℕ) (hf : ∀ k, mem.fingerTable k = nullNode) :
      Reachable P ok c { net := Net.created mem c (P.port c) arg, handed := [], dialled := [] }
  | step {l l' : Located} (h : Reachable P ok c l) (hs : Step P ok l l') : Reachable P ok c l'

/-- Every entry for another node is right: those that nodes hold, and those that their
callbacks were handed; and every message was sent to the node that it reaches. -/
structure Right (P : Places) (l : Located) : Prop where
  successor : ∀ i peer, l.net.peer i = some peer → ∀ k, P.RightAt i (peer.node.successor k)
  finger : ∀ i peer, l.net.peer i = some peer → ∀ k, P.RightAt i (peer.node.fingerTable k)
  predecessor : ∀ i peer, l.net.peer i = some peer → P.RightAt i peer.node.predecessor
  handed : ∀ i n, (i, n) ∈ l.handed → P.RightAt i n
  dialled : ∀ i n, (i, n) ∈ l.dialled → P.Reaches i n

end Located

/-- The node `m` is at `127.0.0.1`, or it is alone among those who wait for the reply. -/
def Places.MayTell (P : Places) (m : HashType) (frames : List Frame) : Prop :=
  P.ip m = 0x7F000001 ∨ ∀ f ∈ frames, f.owner = m

/-! ### The steps are steps of the network -/

namespace Located

variable {P : Places} {ok : HashType → List Frame → Prop} {c : HashType} {l l' : Located}

theorem Step.net_step (h : Step P ok l l') :
  Net.Step l.net l'.net
  := by
  cases h with
  | timer t hi => exact Net.Step.timer t hi
  | lookup id arg hi => exact Net.Step.lookup id arg hi
  | join mem contact arg hi hc hf =>
    apply Net.Step.join mem (P.port _) (P.entry contact) arg hi hc
    intro k
    rcases hf k with hnull | ⟨m, hm, hk⟩
    · left
      rw [hnull]
      exact Or.inl rfl
    · right
      rw [hk]
      exact hm
  | succRequest hm hd hne hok => exact Net.Step.succRequest hm hd hne
  | succReply hm hd => exact Net.Step.succReply hm hd
  | predRequest hops hm hd hok => exact Net.Step.predRequest hops hm hd
  | predReply hm hd => exact Net.Step.predReply hm hd
  | notify ip hip hfrom hm hd => exact Net.Step.notify ip hip hm hd
  | lose hm => exact Net.Step.lose hm

theorem Reachable.net_reachable (h : Reachable P ok c l) :
  Net.Reachable c l.net
  := by
  induction h with
  | created mem arg hf =>
    apply Net.Reachable.created mem (P.port c) arg
    intro k
    rw [hf k]
    exact Or.inl rfl
  | step _ hs ih => exact ih.step hs.net_step

end Located

/-! ### What a node holds, is handed and sends -/

section Sound

variable (P : Places) (i : HashType)

/-- An entry that `i` holds: null, or the one that it has for itself, or right. -/
def Places.Sound (n : NodeInfo) : Prop :=
  n = nullNode ∨ n = P.ownEntry i ∨ n = P.entry n.id

/-- What may be told to those who wait for a reply. -/
def Places.Told (frames : List Frame) (n : NodeInfo) : Prop :=
  n = nullNode ∨ (∀ f ∈ frames, n = P.ownEntry f.owner) ∨ n = P.entry n.id

/-- The entries of the node `i`. -/
structure NodeSound (s : NodeSelf) : Prop where
  self : s.self = P.ownEntry i
  succ : ∀ k, P.Sound i (s.successor k)
  finger : ∀ k, P.Sound i (s.fingerTable k)
  pred : P.Sound i s.predecessor

/-- An event of the node `i`. -/
def EventSound : Event → Prop
  | .found _ n _ => P.Sound i n
  | _ => True

/-- What the node `i` sends; it answers with the nodes that satisfy `tells`. -/
def SentSound (tells : NodeInfo → Prop) : Sent → Prop
  | .findSuccessor dest _ _ | .predecessor dest _ | .alive dest _ => P.Reaches i dest
  | .notify dest id port => P.Reaches i dest ∧ id = i ∧ port = P.port i
  | .reply _ n _ => tells n
  | .useFreed => True

/-- A joined node in the course of an operation. -/
structure Sounds (tells : NodeInfo → Prop) (q : Process Outbox) : Prop where
  node : NodeSound P i q.node
  alive : q.node.Alive 0
  log : ∀ e ∈ q.log, EventSound P i e
  sent : ∀ a ∈ q.net.sent, SentSound P i tells a

end Sound

section

variable {P : Places} {i : HashType} {n : NodeInfo}

theorem Places.sound_entry (m : HashType) :
  P.Sound i (P.entry m)
  := Or.inr (Or.inr rfl)

theorem Places.sound_ownEntry :
  P.Sound i (P.ownEntry i)
  := Or.inr (Or.inl rfl)

/-- An entry that a node holds is right, unless it is for the node itself. -/
theorem Places.Sound.rightAt (h : P.Sound i n) :
  P.RightAt i n
  := by
  rcases h with hnull | hown | hright
  · exact Or.inl hnull
  · right
    left
    rw [hown]
    rfl
  · exact Or.inr (Or.inr hright)

theorem Places.Sound.reaches (h : P.Sound i n) (hne : n ≠ nullNode) :
  P.Reaches i n
  := Or.symm (h.resolve_left hne)

/-- What a node holds may be told to those who wait, when they may be told what it has for
itself in case it is that. -/
theorem Places.Sound.told (h : P.Sound i n) {frames : List Frame}
    (hown : n = P.ownEntry i → P.MayTell i frames) :
  P.Told frames n
  := by
  rcases h with hnull | hn | hright
  · exact Or.inl hnull
  · rcases hown hn with hip | howner
    · right
      right
      rw [hn]
      simp [ownEntry, entry, hip]
    · right
      left
      intro f hf
      rw [howner f hf, hn]
  · exact Or.inr (Or.inr hright)

/-- What is told to a node may be held by it. -/
theorem Places.Told.sound {f : Frame} {frames : List Frame} (h : P.Told (f :: frames) n) :
  P.Sound f.owner n
  := by
  rcases h with hnull | hown | hright
  · exact Or.inl hnull
  · exact Or.inr (Or.inl (hown f List.mem_cons_self))
  · exact Or.inr (Or.inr hright)

theorem Places.Told.tail {f : Frame} {frames : List Frame} (h : P.Told (f :: frames) n) :
  P.Told frames n
  := h.imp_right (Or.imp_left fun hown g hg => hown g (List.mem_cons_of_mem f hg))

end

namespace NodeSound

variable {P : Places} {i : HashType} {s : NodeSelf} {n : NodeInfo}

/-- An entry of the successor array is written. -/
theorem setSuccessor (h : NodeSound P i s) (k : ℤ) (hn : P.Sound i n) :
  NodeSound P i (s.setSuccessor k n)
  := by
  have hrest : (s.setSuccessor k n).self = s.self
      ∧ (s.setSuccessor k n).fingerTable = s.fingerTable
      ∧ (s.setSuccessor k n).predecessor = s.predecessor := by
    rw [NodeSelf.setSuccessor]
    split <;> exact ⟨rfl, rfl, rfl⟩
  obtain ⟨hself, hfinger, hpred⟩ := hrest
  constructor
  · rw [hself]
    exact h.self
  · intro j
    rw [NodeSelf.setSuccessor_successor]
    split_ifs
    · exact hn
    · exact h.succ j
  · rw [hfinger]
    exact h.finger
  · rw [hpred]
    exact h.pred

/-- A node is notified. -/
theorem nodeNotified_sound (h : NodeSound P i s) (hn : P.Sound i n) :
  NodeSound P i (nodeNotified s n)
  := by
  rw [nodeNotified]
  split_ifs
  · exact ⟨h.self, h.succ, h.finger, hn⟩
  · exact h

end NodeSound

namespace Sounds

variable {P : Places} {i : HashType} {tells : NodeInfo → Prop} {q : Process Outbox} {n : NodeInfo}

/-- An operation that starts. -/
theorem start {s : NodeSelf} (h : NodeSound P i s) (halive : s.Alive 0) :
  Sounds P i tells (idle s)
  := by
  refine ⟨h, halive, ?_, ?_⟩
  · simp
  · simp

/-- One event more. -/
theorem then_event (h : Sounds P i tells q) {q' : Process Outbox} {e : Event}
    (he : EventSound P i e) (hnode : q'.node = q.node) (hnet : q'.net = q.net)
    (hlog : q'.log = q.log ++ [e]) :
  Sounds P i tells q'
  := by
  refine ⟨hnode ▸ h.node, hnode ▸ h.alive, ?_, hnet ▸ h.sent⟩
  intro e' he'
  rw [hlog, List.mem_append, List.mem_singleton] at he'
  rcases he' with he' | rfl
  · exact h.log e' he'
  · exact he

theorem emit (h : Sounds P i tells q) {e : Event} (he : EventSound P i e) :
  Sounds P i tells (q.emit e)
  := h.then_event he rfl rfl rfl

theorem lock (h : Sounds P i tells q) :
  Sounds P i tells q.lock
  := h.then_event (e := .lock q.succsLock) trivial rfl rfl rfl

theorem unlock (h : Sounds P i tells q) :
  Sounds P i tells q.unlock
  := h.then_event (e := .unlock q.succsLock) trivial rfl rfl rfl

theorem touch (h : Sounds P i tells q) (k : ℤ) :
  Sounds P i tells (q.touch k)
  := h.then_event (e := .succIndex k) trivial rfl rfl rfl

/-- Events more, none of which hands over a node. -/
theorem log_of_reads (h : Sounds P i tells q) {log us : List Event} {is : List ℤ}
    (hlog : log = q.log ++ us) (hus : ∀ e ∈ us, e.Reads is) :
  ∀ e ∈ log, EventSound P i e
  := by
  intro e he
  rw [hlog, List.mem_append] at he
  rcases he with he | he
  · exact h.log e he
  · have hreads := hus e he
    cases e with
    | found cb n hops => exact absurd hreads not_false
    | _ => trivial

/-- One message more. -/
theorem send (h : Sounds P i tells q) {q' : Process Outbox} {a : Sent}
    (ha : SentSound P i tells a) (hnode : q'.node = q.node) (hlog : q'.log = q.log)
    (hnet : q'.net = ⟨q.net.sent ++ [a]⟩) :
  Sounds P i tells q'
  := by
  refine ⟨hnode ▸ h.node, hnode ▸ h.alive, hlog ▸ h.log, ?_⟩
  intro b hb
  rw [hnet, List.mem_append, List.mem_singleton] at hb
  rcases hb with hb | rfl
  · exact h.sent b hb
  · exact ha

/-- An entry of the successor array is written; the first one with a node in use. -/
theorem setSucc (h : Sounds P i tells q) {k : ℤ} (hn : P.Sound i n) (hIP : k = 0 → n.IP ≠ 0) :
  Sounds P i tells (q.setSucc k n)
  := by
  have htouch := h.touch k
  refine ⟨h.node.setSuccessor k hn, ?_, htouch.log, htouch.sent⟩
  rw [NodeSelf.Alive, Process.setSucc_node, NodeSelf.setSuccessor_successor]
  split_ifs with hk
  · exact hIP hk
  · exact h.alive

/-- The first successor in use is a node that the node holds, and not null. -/
theorem firstSucc (h : Sounds P i tells q) :
  P.Sound i q.node.firstSucc ∧ P.Reaches i q.node.firstSucc
  := by
  rw [firstSucc_of_alive_zero h.alive]
  have hsound := h.node.succ 0
  refine ⟨hsound, hsound.reaches ?_⟩
  intro hnull
  apply h.alive
  rw [hnull]
  rfl

/-- The node that a lookup is forwarded to. -/
theorem closest (h : Sounds P i tells q) (id : HashType) :
  P.Reaches i (nodeClosestPrecedingNode q.node id)
  := by
  rcases nodeClosestPrecedingNode_cases q.node id with hf | hf
  · obtain ⟨⟨k, hk⟩, hnull, -⟩ := closestFinger_spec hf
    rw [← hk] at hnull ⊢
    apply (h.node.finger k).reaches
    intro heq
    apply hnull
    rw [heq]
    exact Or.inl rfl
  · rw [hf]
    exact h.firstSucc.2

/-! ### Callbacks and requests -/

/-- An entry of the successor array is asked for the node that comes after it. -/
theorem nodeUpdateSucc_sounds (h : Sounds P i tells q) {k : ℤ} (hk : 0 ≤ k)
    (hk' : k < numOfSuccs) :
  Sounds P i tells (nodeUpdateSucc q k)
  := by
  obtain ⟨j, rfl⟩ : ∃ j : Fin numOfSuccs, k = j.val := ⟨⟨k.toNat, by omega⟩, by simp; omega⟩
  unfold nodeUpdateSucc
  dsimp only
  rw [Process.touch_node, NodeSelf.successorAt_coe]
  split_ifs with hIP
  · exact h.touch j
  · have hreach : P.Reaches i (q.node.successor j) := by
      apply (h.node.succ j).reaches
      intro hnull
      apply hIP
      rw [hnull]
      rfl
    have hasked := (h.touch j).emit (e := .asked (.updateSuccsFound (j.val + 1)) 0) trivial
    exact hasked.send (a := .findSuccessor (q.node.successor j) ((q.node.successor j).id + 1)
      (.updateSuccsFound (j.val + 1))) hreach rfl rfl rfl

theorem nodeUpdateSuccs_sounds (h : Sounds P i tells q) :
  Sounds P i tells (nodeUpdateSuccs q)
  := by
  have hzero : nodeFirstAliveSucc q.lock.node = 0 := nodeFirstAliveSucc_of_alive_zero h.alive
  unfold nodeUpdateSuccs
  dsimp only
  rw [hzero]
  exact (h.lock.nodeUpdateSucc_sounds le_rfl (by decide)).unlock

theorem nodeNetworkStabalize_sounds (h : Sounds P i tells q) :
  Sounds P i tells (nodeNetworkStabalize q)
  := by
  have hasked := (h.touch (nodeFirstAliveSucc q.node)).emit (e := .asked .stabilizeSpFound 0) trivial
  exact hasked.send (a := .predecessor q.node.firstSucc .stabilizeSpFound) h.firstSucc.2 rfl rfl rfl

/-- The reply for a successor entry other than the first. -/
theorem nodeUpdateSuccsFound_sounds (h : Sounds P i tells q) {k : ℤ} (hk : 1 ≤ k)
    (hk' : k < numOfSuccs) (hn : P.Sound i n) :
  Sounds P i tells (nodeUpdateSuccsFound q n k)
  := by
  have hset : Sounds P i tells (q.lock.setSucc k n) :=
    h.lock.setSucc hn (fun hzero => absurd hzero (by omega))
  unfold nodeUpdateSuccsFound
  dsimp only
  apply Sounds.unlock
  split
  · exact hset.nodeUpdateSucc_sounds (by omega) hk'
  · exact hset

/-- The predecessor of the first successor, which is not null unless it is no node at all. -/
theorem nodeStabilizeSpFound_sounds (h : Sounds P i tells q) (hn : P.Sound i n)
    (hIP : n = nullNode ∨ n.IP ≠ 0) :
  Sounds P i tells (nodeStabilizeSpFound q n)
  := by
  obtain ⟨hnode, hnet, us, hlog, hus⟩ := nodeStabilizeSpFound_eq q n
  have hadopt : Sounds P i tells { q with node := adopted q.node n } := by
    by_cases hadopts : Adopts q.node n
    · have hne : n.IP ≠ 0 := by
        apply hIP.resolve_left
        rintro rfl
        exact hadopts.1.elim (fun hport => hport rfl) (fun hzero => hzero rfl)
      obtain ⟨hnode', halive', -, -⟩ := h.setSucc (k := 0) hn (fun _ => hne)
      rw [Process.setSucc_node, NodeSelf.setSuccessor_zero] at hnode' halive'
      rw [adopted, if_pos hadopts]
      exact ⟨hnode', halive', h.log, h.sent⟩
    · rw [adopted, if_neg hadopts]
      exact ⟨h.node, h.alive, h.log, h.sent⟩
  have hself : (adopted q.node n).self = P.ownEntry i := hadopt.node.self
  refine ⟨hnode ▸ hadopt.node, hnode ▸ hadopt.alive, h.log_of_reads hlog hus, ?_⟩
  intro a ha
  rw [hnet] at ha
  rcases List.mem_append.mp ha with ha | ha
  · exact h.sent a ha
  · rw [List.mem_singleton.mp ha]
    refine ⟨hadopt.firstSucc.2, ?_, ?_⟩
    · rw [hself]
      rfl
    · rw [hself]
      rfl

/-- The node for a finger. -/
theorem fingerUpdate_sounds (h : Sounds P i tells q) (k : Fin idBits) (hn : P.Sound i n) :
  Sounds P i tells (fingerUpdate q n k)
  := by
  refine ⟨⟨h.node.self, h.node.succ, ?_, h.node.pred⟩, h.alive, h.log, h.sent⟩
  intro j
  simp only [fingerUpdate]
  by_cases hjk : j = k
  · subst hjk
    rw [update_self]
    split_ifs
    · exact hn
    · exact Or.inl rfl
  · rw [update_of_ne hjk]
    exact h.node.finger j

/-- A passive callback is handed a node. -/
theorem nodeFound_sounds {cb : FoundCb} (hcb : cb.Passive) (h : Sounds P i tells q)
    (hn : P.Sound i n) (htells : cb.Relays → tells n) (hops : Int16) :
  Sounds P i tells (nodeFound q { cb := cb, node := n, hops := hops })
  := by
  have hemit := h.emit (e := .found cb n hops) hn
  cases cb with
  | fingerUpdate k => exact hemit.fingerUpdate_sounds k hn
  | successorFoundForRemote d =>
    exact hemit.send (a := .reply d n (hops + 1)) (htells trivial) rfl rfl rfl
  | app arg => exact hemit
  | freed => exact hemit.send (a := .useFreed) trivial rfl rfl rfl
  | _ => exact absurd hcb not_false

/-! ### Lookups and timers -/

/-- A lookup. A node that is asked by others may tell them what it answers with. -/
theorem nodeFindSuccessor_sounds (h : Sounds P i tells q) (id : HashType) {cb : FoundCb}
    (hcb : cb.Passive) (hself : cb.Relays → q.node.self.id = id → tells q.node.self)
    (hfirst : cb.Relays → q.node.Answers id → tells q.node.firstSucc) :
  Sounds P i tells (nodeFindSuccessor q id cb).2
  := by
  have hown : P.Sound i q.node.self := by
    rw [h.node.self]
    exact Places.sound_ownEntry
  by_cases heq : q.node.self.id = id
  · rw [nodeFindSuccessor_self cb heq]
    have hfound := h.nodeFound_sounds hcb hown (fun hr => hself hr heq) 0
    have htouch := hfound.touch (nodeFirstAliveSucc
      (nodeFound q { cb := cb, node := q.node.self, hops := 0 }).node)
    have hnone : cb.called.Relays → tells (nodeFound q { cb := cb, node := q.node.self, hops := 0 }).node.firstSucc
      := fun hr => absurd hr cb.not_relays_called
    exact (htouch.nodeFound_sounds hcb.called hfound.firstSucc.1 hnone 0).unlock
  · by_cases hans : q.node.Answers id
    · rw [nodeFindSuccessor_answer cb heq hans]
      apply Sounds.unlock
      apply (h.lock.touch _).nodeFound_sounds hcb h.firstSucc.1
      intro hr
      exact hfirst hr hans
    · obtain ⟨q', hnode, hnet, ⟨us, hlog, hus⟩, hq⟩ := nodeFindSuccessor_forward cb heq hans
      have hq' : Sounds P i tells q' :=
        ⟨hnode ▸ h.node, hnode ▸ h.alive, h.log_of_reads hlog hus, hnet ▸ h.sent⟩
      rw [hq]
      have hasked := hq'.emit (e := .asked cb 0) trivial
      exact hasked.send (a := .findSuccessor (nodeClosestPrecedingNode q.node id) id cb)
        (h.closest id) rfl rfl rfl

/-- A lookup of the node's own. -/
theorem nodeFindSuccessor_sounds_own (h : Sounds P i tells q) (id : HashType) {cb : FoundCb}
    (hcb : cb.Passive) (hrelays : ¬ cb.Relays) :
  Sounds P i tells (nodeFindSuccessor q id cb).2
  := h.nodeFindSuccessor_sounds id hcb (fun hr => absurd hr hrelays) (fun hr => absurd hr hrelays)

theorem nodeFixFingers_sounds (h : Sounds P i tells q) :
  Sounds P i tells (nodeFixFingers q)
  := by
  rw [nodeFixFingers]
  generalize List.range idBits = fnums
  induction fnums generalizing q with
  | nil => exact h
  | cons fnum fnums ih =>
    apply ih
    unfold nodeFixAFinger
    dsimp only
    split
    · exact h
    · exact h.nodeFindSuccessor_sounds_own _ trivial not_false

/-- What a timer starts. -/
theorem fire_sounds (h : Sounds P i tells q) (t : Timer) :
  Sounds P i tells (t.fire q)
  := by
  cases t with
  | stabilise => exact h.nodeNetworkStabalize_sounds
  | updateSuccs => exact h.nodeUpdateSuccs_sounds
  | fixFingers => exact h.nodeFixFingers_sounds

end Sounds

/-! ### What holds in every state -/

section

variable (P : Places)

/-- A message in flight. -/
def MsgSound : Msg → Prop
  | .succReply n _ frames => P.Told frames n
  | .predReply n _ f => P.Told [f] n
  | .notify _ id port => port = P.port id
  | _ => True

/-- The invariant of the networks in which nodes hand over the entries that they have for
themselves only where they may. -/
structure Located.Invariant (l : Located) : Prop where
  peer : ∀ i peer, l.net.peer i = some peer → NodeSound P i peer.node
  msg : ∀ m ∈ l.net.msgs, MsgSound P m
  handed : ∀ i n, (i, n) ∈ l.handed → P.Sound i n
  dialled : ∀ i n, (i, n) ∈ l.dialled → P.Reaches i n

end

section

variable {P : Places} {i : HashType} {frames : List Frame} {q : Process Outbox}

/-- What a node sends goes out as messages that carry what may be told. -/
theorem msgSound_of_mem_route {sent : List Sent}
    (h : ∀ a ∈ sent, SentSound P i (P.Told frames) a) {m : Msg} (hm : m ∈ route i frames sent) :
  MsgSound P m
  := by
  rcases List.mem_append.mp hm with hm | hm
  · obtain ⟨a, ha, hreq⟩ := List.mem_filterMap.mp hm
    have hsound := h a ha
    cases a with
    | findSuccessor dest id cb =>
      cases hreq
      trivial
    | predecessor dest cb =>
      cases hreq
      trivial
    | notify dest id port =>
      cases hreq
      obtain ⟨-, rfl, hport⟩ := hsound
      exact hport
    | alive dest cb => cases hreq
    | reply data node hops => cases hreq
    | useFreed => cases hreq
  · obtain ⟨a, ha, hans⟩ := List.mem_filterMap.mp (List.mem_of_mem_take hm)
    have hsound := h a ha
    cases a with
    | reply data node hops =>
      cases hans
      exact hsound
    | _ => cases hans

theorem sound_of_mem_handedBy {log : List Event} (h : ∀ e ∈ log, EventSound P i e)
    {j : HashType} {n : NodeInfo} (hn : (j, n) ∈ handedBy i log) :
  P.Sound j n
  := by
  obtain ⟨e, he, hj⟩ := List.mem_filterMap.mp hn
  have hsound := h e he
  cases e with
  | found cb n hops =>
    cases hj
    exact hsound
  | _ => cases hj

theorem reaches_of_mem_dialledBy {tells : NodeInfo → Prop} {sent : List Sent}
    (h : ∀ a ∈ sent, SentSound P i tells a) {j : HashType} {n : NodeInfo}
    (hn : (j, n) ∈ dialledBy i sent) :
  P.Reaches j n
  := by
  obtain ⟨a, ha, hj⟩ := List.mem_filterMap.mp hn
  have hsound := h a ha
  cases a with
  | findSuccessor dest id cb =>
    cases hj
    exact hsound
  | predecessor dest cb =>
    cases hj
    exact hsound
  | notify dest id port =>
    cases hj
    exact hsound.1
  | alive dest cb =>
    cases hj
    exact hsound
  | reply data node hops => cases hj
  | useFreed => cases hj

end

namespace Located.Invariant

variable {P : Places} {l : Located} {i : HashType} {frames : List Frame} {q : Process Outbox}

/-- A process runs, when the messages that are left were there before. -/
theorem act (h : l.Invariant P) (joined : Bool) {kept : List Msg} (hkept : kept ⊆ l.net.msgs)
    (hnode : NodeSound P i q.node) (hlog : ∀ e ∈ q.log, EventSound P i e)
    (hsent : ∀ a ∈ q.net.sent, SentSound P i (P.Told frames) a) :
  (l.act i joined frames kept q).Invariant P
  := by
  constructor
  · intro j peer hj
    simp only [Located.act, Net.act] at hj
    by_cases hji : j = i
    · subst hji
      rw [update_self] at hj
      cases hj
      exact hnode
    · rw [update_of_ne hji] at hj
      exact h.peer j peer hj
  · intro m hm
    rcases List.mem_append.mp hm with hm | hm
    · exact h.msg m (hkept hm)
    · exact msgSound_of_mem_route hsent hm
  · intro j n hn
    rcases List.mem_append.mp hn with hn | hn
    · exact h.handed j n hn
    · exact sound_of_mem_handedBy hlog hn
  · intro j n hn
    rcases List.mem_append.mp hn with hn | hn
    · exact h.dialled j n hn
    · exact reaches_of_mem_dialledBy hsent hn

/-- A joined node runs one of its operations. -/
theorem run (h : l.Invariant P) (joined : Bool) {kept : List Msg} (hkept : kept ⊆ l.net.msgs)
    (hq : Sounds P i (P.Told frames) q) :
  (l.act i joined frames kept q).Invariant P
  := h.act joined hkept hq.node hq.log hq.sent

/-- The messages change, and nothing else does. -/
theorem setMsgs (h : l.Invariant P) {msgs : List Msg} (hmsgs : ∀ m ∈ msgs, MsgSound P m) :
  ({ l with net := { l.net with msgs := msgs } } : Located).Invariant P
  := ⟨h.peer, hmsgs, h.handed, h.dialled⟩

/-- A joined node of the network starts to run. -/
theorem sounds {c : HashType} (h : l.Invariant P) (hinv : Net.Invariant c l.net) {s : NodeSelf}
    (hi : l.net.peer i = some { node := s, joined := true }) (tells : NodeInfo → Prop) :
  Sounds P i tells (idle s)
  := Sounds.start (h.peer i _ hi) (hinv.running hi).alive_zero

/-- A node calls `node_network_join`. -/
theorem join (h : l.Invariant P) (mem : NodeSelf) (contact : HashType) (arg : ℕ)
    (hf : ∀ k, mem.fingerTable k = nullNode ∨ ∃ m ∈ l.net.Joined, mem.fingerTable k = P.entry m) :
  (l.act i false [] l.net.msgs
    (nodeNetworkJoin (idle (nodeCreate mem i (P.port i))) (P.entry contact) arg)).Invariant P
  := by
  apply h.act false (List.Subset.refl _)
  · constructor
    · rfl
    · intro k
      exact Or.inl rfl
    · intro k
      rcases hf k with hnull | ⟨m, -, hk⟩
      · exact Or.inl hnull
      · right
        right
        change mem.fingerTable k = P.entry (mem.fingerTable k).id
        rw [hk]
        rfl
    · exact Or.inl rfl
  · intro e he
    obtain rfl := List.mem_singleton.mp he
    trivial
  · intro a ha
    obtain rfl := List.mem_singleton.mp ha
    exact Or.inl rfl

/-- A lookup arrives at a node. -/
theorem succRequest {c dest id : HashType} {s : NodeSelf} {b : Bool} {before after : List Msg}
    (h : l.Invariant P) (hinv : Net.Invariant c l.net)
    (hm : l.net.msgs = before ++ .succRequest dest id frames :: after)
    (hd : l.net.peer dest = some { node := s, joined := b }) (hne : dest ≠ id)
    (hok : s.Answers id ∧ s.firstSucc = s.self → P.MayTell dest frames) :
  (l.act dest b frames (before ++ after) (nodeFindSuccessor (idle s) id relay).2).Invariant P
  := by
  obtain ⟨hdest, -⟩ := hinv.msg _ (hm ▸ List.mem_append_right before List.mem_cons_self)
  obtain rfl := Net.joined_of_mem hdest hd
  have hs := h.sounds hinv hd (P.Told frames)
  have hself : s.self = P.ownEntry dest := hs.node.self
  apply h.run true (Net.kept hm).subset
  have hpassive : relay.Passive := trivial
  apply hs.nodeFindSuccessor_sounds id hpassive
  · intro _ heq
    have hdest : s.self.id = dest := congrArg NodeInfo.id hself
    exact absurd (hdest.symm.trans heq) hne
  · intro _ hans
    apply hs.firstSucc.1.told
    intro hown
    apply hok
    use hans
    rw [hself]
    exact hown

/-- The reply to a lookup arrives at a node. -/
theorem succReply {c : HashType} {node : NodeInfo} {hops : Int16} {f : Frame} {s : NodeSelf}
    {b : Bool} {before after : List Msg} (h : l.Invariant P) (hinv : Net.Invariant c l.net)
    (hm : l.net.msgs = before ++ .succReply node hops (f :: frames) :: after)
    (hd : l.net.peer f.owner = some { node := s, joined := b }) :
  (l.act f.owner (b || Net.joins f.cb) frames (before ++ after)
    (nodeFound (idle s) { cb := f.cb, node := node, hops := hops })).Invariant P
  := by
  have hin : Msg.succReply node hops (f :: frames) ∈ l.net.msgs :=
    hm ▸ List.mem_append_right before List.mem_cons_self
  obtain ⟨hnode, ⟨id, hstack⟩, -⟩ := hinv.msg _ hin
  have htold : P.Told (f :: frames) node := h.msg _ hin
  have hkept := (Net.kept hm).subset
  obtain ⟨owner, cb⟩ := f
  cases frames with
  | cons g frames =>
    -- the node forwarded the lookup, and hands the reply on
    obtain ⟨hcb, howner, -⟩ := hstack
    dsimp only at hcb howner hd
    subst hcb
    obtain rfl := Net.joined_of_mem howner hd
    have hpassive : relay.Passive := trivial
    apply h.run _ hkept
    exact (h.sounds hinv hd _).nodeFound_sounds hpassive htold.sound (fun _ => htold.tail) hops
  | nil =>
    have howner : Net.joins cb = false → b = true := by
      intro hjoin
      cases cb with
      | networkJoinSuccFound arg => cases hjoin
      | stabilizeSpFound => exact absurd hstack not_false
      | updateSuccsFound k => exact Net.joined_of_mem hstack.1 hd
      | fingerUpdate k => exact Net.joined_of_mem hstack hd
      | successorFoundForRemote d => exact absurd hstack not_false
      | app arg => exact Net.joined_of_mem hstack hd
      | freed => exact absurd hstack not_false
    cases cb with
    | networkJoinSuccFound arg =>
      apply h.act _ hkept
      · exact (h.peer _ _ hd).setSuccessor 0 htold.sound
      · intro e he
        rcases List.mem_append.mp he with he | he
        · rcases List.mem_append.mp he with he | he
          · obtain rfl := List.mem_singleton.mp he
            exact htold.sound
          · obtain rfl := List.mem_singleton.mp he
            trivial
        · obtain rfl := List.mem_singleton.mp he
          trivial
      · intro a ha
        cases ha
    | updateSuccsFound k =>
      obtain rfl := howner rfl
      apply h.run _ hkept
      have hemit := (h.sounds hinv hd (P.Told [])).emit
        (e := .found (.updateSuccsFound k) node hops) htold.sound
      exact hemit.nodeUpdateSuccsFound_sounds hstack.2.1 hstack.2.2 htold.sound
    | fingerUpdate k =>
      obtain rfl := howner rfl
      have hpassive : (FoundCb.fingerUpdate k).Passive := trivial
      have hrelays : ¬ (FoundCb.fingerUpdate k).Relays := not_false
      apply h.run _ hkept
      exact (h.sounds hinv hd _).nodeFound_sounds hpassive htold.sound (absurd · hrelays) hops
    | app arg =>
      obtain rfl := howner rfl
      have hpassive : (FoundCb.app arg).Passive := trivial
      have hrelays : ¬ (FoundCb.app arg).Relays := not_false
      apply h.run _ hkept
      exact (h.sounds hinv hd _).nodeFound_sounds hpassive htold.sound (absurd · hrelays) hops
    | stabilizeSpFound => exact absurd hstack not_false
    | successorFoundForRemote d => exact absurd hstack not_false
    | freed => exact absurd hstack not_false

/-- What a node answers to one that asks for its predecessor. -/
theorem told_predAnswer {s : NodeSelf} (h : NodeSound P i s)
    (hok : s.hasPred = true ∧ s.predecessor = s.self → P.MayTell i frames) :
  P.Told frames (predAnswer s)
  := by
  rw [predAnswer]
  split_ifs with hpred
  · apply h.pred.told
    intro hown
    apply hok
    use hpred
    rw [hown, h.self]
  · exact Or.inl rfl

theorem step {c : HashType} {l' : Located} (h : l.Invariant P) (hinv : Net.Invariant c l.net)
    (hs : Located.Step P P.MayTell l l') :
  l'.Invariant P
  := by
  cases hs with
  | timer t hi =>
    apply h.run true (List.Subset.refl _)
    exact (h.sounds hinv hi _).fire_sounds t
  | lookup id arg hi =>
    apply h.run true (List.Subset.refl _)
    exact (h.sounds hinv hi _).nodeFindSuccessor_sounds_own id trivial not_false
  | join mem contact arg hi hc hf => exact h.join mem contact arg hf
  | succRequest hm hd hne hok => exact h.succRequest hinv hm hd hne hok
  | succReply hm hd => exact h.succReply hinv hm hd
  | predRequest hops hm hd hok =>
    apply h.setMsgs
    intro m hin
    rcases List.mem_append.mp hin with hin | hin
    · exact h.msg m ((Net.kept hm).subset hin)
    · rw [List.mem_singleton.mp hin]
      exact told_predAnswer (h.peer _ _ hd) hok
  | @predReply node hops f s b before after hm hd =>
    have hin : Msg.predReply node hops f ∈ l.net.msgs :=
      hm ▸ List.mem_append_right before List.mem_cons_self
    obtain ⟨howner, hcb, hnode⟩ := hinv.msg _ hin
    have htold : P.Told [f] node := h.msg _ hin
    obtain rfl := Net.joined_of_mem howner hd
    rw [hcb]
    apply h.run true (Net.kept hm).subset
    have hemit := (h.sounds hinv hd (P.Told [])).emit
      (e := .found .stabilizeSpFound node hops) htold.sound
    exact hemit.nodeStabilizeSpFound_sounds htold.sound (hnode.imp_right Known.IP_ne)
  | @notify dest id port s b before after ip hip hfrom hm hd =>
    have hin : Msg.notify dest id port ∈ l.net.msgs :=
      hm ▸ List.mem_append_right before List.mem_cons_self
    have hport : port = P.port id := h.msg _ hin
    apply h.act b (Net.kept hm).subset
    · apply (h.peer dest _ hd).nodeNotified_sound
      rw [hport]
      rcases hfrom with rfl | ⟨rfl, rfl⟩
      · exact Places.sound_entry id
      · exact Places.sound_ownEntry
    · simp
    · simp
  | lose hm =>
    apply h.setMsgs
    intro m hin
    exact h.msg m ((Net.kept hm).subset hin)

/-- A node creates a network. -/
theorem created (mem : NodeSelf) (c : HashType) (arg : ℕ)
    (hf : ∀ k, mem.fingerTable k = nullNode) :
  Located.Invariant P
    { net := Net.created mem c (P.port c) arg, handed := [], dialled := [] }
  := by
  constructor
  · intro i peer hi
    simp only [Net.created] at hi
    by_cases hic : i = c
    · subst hic
      rw [update_self] at hi
      cases hi
      constructor
      · rfl
      · have hself : P.Sound i (nodeCreate mem i (P.port i)).self := Places.sound_ownEntry
        intro k
        have hentries := (nodeCreate mem i (P.port i)).setSuccessor_successor 0
          (nodeCreate mem i (P.port i)).self k
        change P.Sound i (((nodeCreate mem i (P.port i)).setSuccessor 0
          (nodeCreate mem i (P.port i)).self).successor k)
        rw [hentries]
        split_ifs
        · exact hself
        · exact Or.inl rfl
      · intro k
        exact Or.inl (hf k)
      · exact Places.sound_ownEntry
    · rw [update_of_ne hic] at hi
      cases hi
  · intro m hm
    cases hm
  · intro j n hn
    cases hn
  · intro j n hn
    cases hn

end Located.Invariant

/-! ### Every run -/

namespace Located

theorem Reachable.invariant {P : Places} {c : HashType} {l : Located}
    (h : Reachable P P.MayTell c l) :
  l.Invariant P
  := by
  induction h with
  | created mem arg hf => exact Invariant.created mem c arg hf
  | step h hs ih => exact ih.step h.net_reachable.invariant hs

/-- In every run in which a node that is not at `127.0.0.1` hands the entry that it has for
itself to nobody else, every entry for another node is right, wherever it is held and to
whichever callback it is handed, and every message was sent to the node that it reaches. -/
theorem addresses_right {P : Places} {c : HashType} {l : Located}
    (h : Reachable P P.MayTell c l) :
  l.Right P
  := by
  have hinv := h.invariant
  constructor
  · intro i peer hi k
    exact ((hinv.peer i peer hi).succ k).rightAt
  · intro i peer hi k
    exact ((hinv.peer i peer hi).finger k).rightAt
  · intro i peer hi
    exact (hinv.peer i peer hi).pred.rightAt
  · intro i n hn
    exact (hinv.handed i n hn).rightAt
  · exact hinv.dialled

/-! ### The first join -/

section FirstJoin

variable (P : Places)

/-- The node `5` has created a network, -/
def alone : Located :=
  { net := Net.created .blank 5 (P.port 5) 0, handed := [], dialled := [] }

/-- the state of node `5` then, -/
def aloneNode : NodeSelf :=
  (nodeNetworkCreate (idle (nodeCreate .blank 5 (P.port 5))) 0).2.node

/-- the node `9` joins with it, -/
def calling : Located :=
  (alone P).act 9 false [] []
    (nodeNetworkJoin (idle (nodeCreate .blank 9 (P.port 9))) (P.entry 5) 0)

/-- the lookup of node `9` has arrived, -/
def answered : Located :=
  (calling P).act 5 true [{ owner := 9, cb := .networkJoinSuccFound 0 }] []
    (nodeFindSuccessor (idle (aloneNode P)) 9 relay).2

/-- and so has the reply. -/
def firstJoin : Located :=
  (answered P).act 9 true [] []
    (nodeFound (idle { nodeCreate .blank 9 (P.port 9) with hasPred := false })
      { cb := .networkJoinSuccFound 0, node := P.ownEntry 5, hops := 1 })

variable {P}

theorem aloneNode_firstSucc :
  (aloneNode P).firstSucc = P.ownEntry 5
  := by
  have halive : (aloneNode P).Alive 0 := by
    change (0x7F000001 : UInt32) ≠ 0
    decide
  exact firstSucc_of_alive_zero halive

/-- The reply to the first that joins is the entry that the creator has for itself. -/
theorem answered_msgs :
  (answered P).net.msgs
    = [.succReply (P.ownEntry 5) 1 [{ owner := 9, cb := .networkJoinSuccFound 0 }]]
  := by
  have hne : (idle (aloneNode P)).node.self.id ≠ 9 := by
    change (5 : HashType) ≠ 9
    decide
  have hans : (idle (aloneNode P)).node.Answers 9 := by
    right
    rw [idle_node, aloneNode_firstSucc]
    rfl
  rw [answered, nodeFindSuccessor_answer relay hne hans, idle_node, aloneNode_firstSucc]
  rfl

theorem reachable_firstJoin {ok : HashType → List Frame → Prop}
    (hok : ok 5 [{ owner := 9, cb := .networkJoinSuccFound 0 }]) :
  Reachable P ok 5 (firstJoin P)
  := by
  have halone : Reachable P ok 5 (alone P) := .created .blank 0 (fun _ => rfl)
  have hcalling : Reachable P ok 5 (calling P) := by
    apply halone.step
    apply Step.join .blank 5 0 rfl ⟨_, rfl⟩
    intro k
    exact Or.inl rfl
  have hrequest : (calling P).net.msgs
      = [] ++ .succRequest 5 9 [{ owner := 9, cb := .networkJoinSuccFound 0 }] :: [] := rfl
  have hanswered : Reachable P ok 5 (answered P) :=
    hcalling.step (.succRequest hrequest (s := aloneNode P) (b := true) rfl (by decide) (fun _ => hok))
  have hreply : (answered P).net.msgs = []
      ++ .succReply (P.ownEntry 5) 1 [{ owner := 9, cb := .networkJoinSuccFound 0 }] :: [] :=
    answered_msgs
  have hpeer : (answered P).net.peer 9
      = some { node := { nodeCreate .blank 9 (P.port 9) with hasPred := false }
               joined := false } := rfl
  exact hanswered.step (.succReply hreply hpeer)

/-- When node `5` is at `127.0.0.1`, the first join leaves only right entries. -/
theorem addresses_right_firstJoin :
  (firstJoin { ip := fun m => 0x7F000000 + m - 4, port := fun _ => 4000 }).Right
    { ip := fun m => 0x7F000000 + m - 4, port := fun _ => 4000 }
  := addresses_right (reachable_firstJoin (Or.inl (by decide)))

/-- The node `5` is at `10.0.0.5`, and the node `9` takes the address of its successor to be
`127.0.0.1`. -/
theorem firstJoin_wrong :
  ∃ l peer, Reachable { ip := fun m => 0x0A000000 + m, port := fun _ => 4000 } (fun _ _ => True) 5 l
    ∧ l.net.peer 9 = some peer
    ∧ ¬ Places.RightAt { ip := fun m => 0x0A000000 + m, port := fun _ => 4000 } 9
      (peer.node.successor 0)
  := by
  refine ⟨firstJoin { ip := fun m => 0x0A000000 + m, port := fun _ => 4000 }, _,
    reachable_firstJoin trivial, rfl, ?_⟩
  rintro (hnull | hown | hright)
  · revert hnull
    decide
  · revert hown
    decide
  · revert hright
    decide

end FirstJoin

end Located
