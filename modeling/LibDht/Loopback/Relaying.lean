import LibDht.Loopback.Arrival
import LibDht.Loopback.Wires
import LibDht.Protocol.Handlers

/-!
# What a node sends, on the wires

A node that runs one of its operations, or is handed a reply, sends requests and
notifications one after another. Each is a new connection and a message on it, or it is a
message that will not arrive. A node that is asked for a successor answers on the connection
that the request came in on, or makes one connection to ask another node, and the frame of
the one that asked is on top of the stack.
-/

open Function

namespace FoundCb

/-- A callback of the node itself, other than the one that answers a request. -/
def Local (cb : FoundCb) : Prop :=
  ∀ d, cb ≠ .successorFoundForRemote d

theorem masked_of_local {cb : FoundCb} (h : cb.Local) :
  cb.masked = cb
  := by
  cases cb with
  | successorFoundForRemote d => exact absurd rfl (h d)
  | _ => rfl

end FoundCb

namespace Sent

/-- The callback that the reply is handed to. -/
def cb : Sent → Option FoundCb
  | .findSuccessor _ _ cb | .predecessor _ cb => some cb
  | .notify _ _ _ | .alive _ _ | .reply _ _ _ | .useFreed => none

/-- The message, with its callback as those who wait for the reply are told apart by. -/
def masked : Sent → Sent
  | .findSuccessor dest id cb => .findSuccessor dest id cb.masked
  | .predecessor dest cb => .predecessor dest cb.masked
  | a => a

theorem masked_of_local {a : Sent} (h : ∀ cb, a.cb = some cb → cb.Local) :
  a.masked = a
  := by
  cases a with
  | findSuccessor dest id cb => rw [masked, FoundCb.masked_of_local (h cb rfl)]
  | predecessor dest cb => rw [masked, FoundCb.masked_of_local (h cb rfl)]
  | _ => rfl

end Sent

namespace Purpose

variable {u : Purpose} {a : Sent} {n : NodeInfo}

/-- The request on the connection is the message. -/
theorem For.asks (h : u.For a) (ha : a.dest = some n) (i : HashType) (fs : List Frame) :
  u.asks i n.id fs = a.masked.request i fs
  := by
  cases h with
  | lookup dest id data =>
    cases ha
    rfl
  | predecessor dest data =>
    cases ha
    rfl
  | probe dest cb => rfl
  | notify dest id port =>
    cases ha
    rfl

theorem For.cb (h : u.For a) {data : NodeFoundCbData} (hdata : u.found = some data) :
  a.cb = some data.cb
  := by
  cases h with
  | lookup dest id data' =>
    cases hdata
    rfl
  | predecessor dest data' =>
    cases hdata
    rfl
  | probe dest cb => cases hdata
  | notify dest id port => cases hdata

end Purpose

/-- From `W` the node `i` has come to `W'`: its table is `net` then, and it has sent `ms`. -/
structure Wires.Sends (W W' : Wires) (i : HashType) (net : NodeNet) (ms : List Msg) : Prop where
  shows : Shows net (W'.row i)
  other : ∀ j, j ≠ i → W'.row j = W.row j
  msgs : W'.msgs.map Prod.snd = W.msgs.map Prod.snd ++ ms

namespace Wired

variable {port : HashType → UInt16} {next : HashType → ℕ} {links : List Link} {W : Wires}
  {i : HashType} {net net' : NodeNet} {a : Sent} {n : NodeInfo} {fs : List Frame}

/-- The number of serials that the node `i` has given goes up. -/
theorem le_update {k : ℕ} (hk : next i ≤ k) (j : HashType) :
  next j ≤ update next i k j
  := by
  by_cases hj : j = i
  · subst hj
    rw [update_self]
    apply hk
  · rw [update_of_ne hj]

theorem map_snd_append (xs : List (Option Ticket × Msg)) (t : Option Ticket) (ms : List Msg) :
  (xs ++ ms.map (Prod.mk t)).map Prod.snd = xs.map Prod.snd ++ ms
  := by
  rw [List.map_append, List.map_map]
  congr 1
  apply List.map_id

/-- Messages that will not arrive are added. -/
theorem lost (h : Wired port next links W) {next' : HashType → ℕ} (hle : ∀ j, next j ≤ next' j)
    (ms : List Msg) :
  Wired port next' links (W.carry (W.msgs ++ ms.map (Prod.mk none)))
  := by
  have h' := h.of_le hle
  refine ⟨h'.lt, h'.near_lt, h'.far_lt, h.near_inj, h.far_inj, h.near, h.far, h.quiet, h.own, ?forwards,
    h.once, ?request, ?reply⟩
  case forwards =>
    intro e data d hawaits hcb
    apply (h.forwards e data d hawaits hcb).mono (fun l hl _ => hl)
    intro l _ v _ _
    exact ⟨rfl, rfl, rfl⟩
  case request =>
    intro e u sin hu hasked
    rcases h.request e u sin hu hasked with hprobe | ⟨d, m, hsin, hm, hin⟩
    · left
      apply hprobe
    · right
      exact ⟨d, m, hsin, hm, List.mem_append_left _ hin⟩
  case reply =>
    intro l hl t j out ht hy hne
    refine (h.reply l hl t j out ht hy hne).mono rfl rfl ?_
    intro m hm
    exact List.mem_append_left _ hm

/-- One message is sent. -/
theorem sent (h : Wired port next links W) (hnext : next i = net.nextSerial)
    (hdest : a.dest = some n)
    (hn : (∃ cb, a = .alive n cb) ∨ (n.IP, n.port) = (0x7F000001, port n.id))
    (hsends : Sends a n (W.row i) net net')
    (hown : ∀ cb, a.cb = some cb → cb.Local → fs = [])
    (hforwards : ∀ d, a.cb = some (.successorFoundForRemote d) →
      W.Forwards links i fs d ∧ ∀ v, d.asker = some v → ¬ W.Pending (i, v)) :
  ∃ W', Wired port (update next i net'.nextSerial) links W'
    ∧ W.Sends W' i net' (a.masked.request i fs).toList
  := by
  have hle : ∀ j, next j ≤ update next i net'.nextSerial j :=
    le_update (hnext ▸ hsends.le)
  rcases hsends.conns with hsame | ⟨u, hu, hserial, hnew⟩
  · refine ⟨_, h.lost hle (a.masked.request i fs).toList, ?_, fun j _ => rfl, ?_⟩
    · apply hsame
    · apply map_snd_append
  · let ticket : Ticket := { conn := (i, net.nextSerial), back := false }
    let xs := W.msgs ++ (a.masked.request i fs).toList.map (Prod.mk (some ticket))
    refine ⟨W.opened (i, net.nextSerial) u (n.IP, n.port) fs xs, ?_, ?_, ?_, ?_⟩
    · apply h.opened (le_of_eq hnext) hle
      · dsimp only
        rw [update_self, hserial]
        apply Nat.lt_succ_self
      · intro y hy
        exact List.mem_append_left _ hy
      · intro data hdata hcb
        exact hown data.cb (hu.cb hdata) hcb
      · intro data d hdata hcb
        apply hforwards
        rw [← hcb]
        apply hu.cb hdata
      · rcases hn with ⟨cb, rfl⟩ | hn
        · left
          cases hu
          exact ⟨cb, rfl⟩
        · cases hm : a.masked.request i fs with
          | none =>
            left
            cases hu with
            | probe dest cb => exact ⟨cb, rfl⟩
            | _ => cases hm
          | some m =>
            right
            refine ⟨n.id, m, hn, ?_, ?_⟩
            · rw [hu.asks hdest, hm]
            · apply List.mem_append_right
              rw [hm]
              exact List.mem_singleton_self _
    · rw [Wires.row_opened]
      apply hnew
    · intro j hj
      exact Wires.row_opened_of_ne hj
    · apply map_snd_append

/-- Messages are sent, one after another. None of them is for a request that came in. -/
theorem sentAll (h : Wired port next links W) (hnext : next i = net.nextSerial)
    (hshows : Shows net (W.row i)) (s : NodeSelf) {sent : List Sent}
    (hsent : ∀ a ∈ sent, (∀ cb, a.cb = some cb → cb.Local) ∧ ∃ n, a.dest = some n
      ∧ ((∃ cb, a = .alive n cb) ∨ (n.IP, n.port) = (0x7F000001, port n.id))) :
  ∃ W', Wired port (update next i (sendAll s net sent).nextSerial) links W'
    ∧ W.Sends W' i (sendAll s net sent) (sent.filterMap (Sent.request i []))
  := by
  induction sent generalizing net next W with
  | nil =>
    refine ⟨W, ?_, hshows, fun j _ => rfl, ?_⟩
    · rw [sendAll, List.foldl_nil, ← hnext, update_eq_self]
      apply h
    · rw [List.filterMap_nil, List.append_nil]
  | cons a sent ih =>
    obtain ⟨hlocal, n, hdest, hn⟩ := hsent a List.mem_cons_self
    obtain ⟨W₁, h₁, hsends₁⟩ : ∃ W₁, Wired port (update next i (a.send s net).nextSerial) links W₁
        ∧ W.Sends W₁ i (a.send s net) (a.masked.request i []).toList :=
      h.sent hnext hdest hn (hshows.send s hdest) (fun _ _ _ => rfl)
        (fun d hd => absurd rfl (hlocal _ hd d))
    obtain ⟨W₂, h₂, hsends₂⟩ := ih h₁ (update_self ..) hsends₁.shows
      (fun b hb => hsent b (List.mem_cons_of_mem a hb))
    rw [Sent.masked_of_local hlocal] at hsends₁
    rw [update_idem] at h₂
    refine ⟨W₂, h₂, hsends₂.shows, ?_, ?_⟩
    · intro j hj
      rw [hsends₂.other j hj, hsends₁.other j hj]
    · rw [hsends₂.msgs, hsends₁.msgs, List.append_assoc]
      congr 1
      cases hreq : a.request i [] with
      | none => rw [List.filterMap_cons_none hreq, Option.toList_none, List.nil_append]
      | some m => rw [List.filterMap_cons_some hreq, Option.toList_some, List.singleton_append]

end Wired

section

variable {q : NodeProcess} {v : ℕ → Option Conn} {s : ℕ} {j : Fin maxOpenConnections}

/-- The answer to a request is written to the connection that it came in on. -/
theorem Shows.nodeFound_answerTo {out : List UInt8} (h : Shows q.net v)
    (hs : v s = some (.taken j out)) (n : NodeInfo) {hops hops' : Int16} (hhops : hops + 1 = hops') :
  let r := nodeFound q { cb := answerTo j s, node := n, hops := hops }
  r.node = q.node ∧ r.net.nextSerial = q.net.nextSerial
    ∧ Shows r.net (update v s (some (.taken j (out ++ successorReply n hops'))))
  := by
  subst hhops
  have hnet : (nodeFound q { cb := answerTo j s, node := n, hops := hops }).net
      = NodeNet.successorFoundForRemote q.net { connection := j.val, asker := some s } n hops := by
    simp [nodeFound, answerTo, nodeSuccessorFoundForRemote, Remote.successorFoundForRemote]
  have hwrite := h.write hs (successorReply n (hops + 1))
  dsimp only
  rw [hnet, h.successorFoundForRemote hs]
  refine ⟨?_, ?_, hwrite⟩
  · simp [nodeFound, answerTo, nodeSuccessorFoundForRemote]
  · rw [NetServer.write, NetServer.modifyBev, NetServer.modify]

/-- A process whose node is asked for its own identifier crashes. -/
theorem crashed_of_own {id : HashType} (hid : q.node.self.id = id) :
  (nodeFindSuccessor q id (answerTo j s)).2.net.crashed = true
  := by
  rw [nodeFindSuccessor_self _ hid]
  rfl

/-- What a node that is asked for a successor does, on the wires and over messages: it answers,
or it asks another node. It is not asked for its own identifier. -/
theorem Shows.served (h : Shows q.net v) (hs : v s = some (.taken j [])) {id : HashType}
    (hid : q.node.self.id ≠ id) :
  let r := (nodeFindSuccessor q id (answerTo j s)).2
  let a := (nodeFindSuccessor (idle q.node) id relay).2
  r.node = q.node ∧ a.node = q.node
    ∧ ((∃ n rest, r.net.nextSerial = q.net.nextSerial
          ∧ Shows r.net (update v s (some (.taken j (successorReply n 1 ++ rest))))
          ∧ ∀ i frames, route i frames a.net.sent = [.succReply n 1 frames])
      ∨ ∃ n, Sends (.findSuccessor n id (answerTo j s)) n v q.net r.net
          ∧ a.net.sent = [.findSuccessor n id relay])
  := by
  have hone : (0 : Int16) + 1 = 1 := by decide
  by_cases hans : q.node.Answers id
  · rw [nodeFindSuccessor_answer (answerTo j s) hid hans,
      nodeFindSuccessor_answer (p := idle q.node) relay hid hans]
    obtain ⟨hnode, hnext, hshows⟩ := Shows.nodeFound_answerTo
      (q := q.lock.touch (nodeFirstAliveSucc q.node)) h hs q.node.firstSucc hone
    rw [List.nil_append, ← List.append_nil (successorReply _ _)] at hshows
    simp only [Process.unlock_node, Process.unlock_net]
    exact ⟨hnode, rfl, Or.inl ⟨q.node.firstSucc, [], hnext, hshows, fun i frames => rfl⟩⟩
  · obtain ⟨q₁, hnode, hnet, -, hq⟩ := nodeFindSuccessor_forward (answerTo j s) hid hans
    obtain ⟨q₂, hnode₂, hnet₂, -, hq₂⟩ :=
      nodeFindSuccessor_forward (p := idle q.node) relay hid hans
    rw [hq, hq₂]
    refine ⟨hnode, hnode₂, Or.inr ⟨nodeClosestPrecedingNode q.node id, ?_, ?_⟩⟩
    · have hsends := h.findSuccessorRemote (nodeClosestPrecedingNode q.node id) id (answerTo j s)
      rw [← hnet] at hsends ⊢
      apply hsends
    · change q₂.net.sent ++ _ = _
      rw [hnet₂]
      rfl

end
