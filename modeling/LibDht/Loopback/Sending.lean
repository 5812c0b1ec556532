import LibDht.Loopback.Table
import LibDht.Net.Relay

/-!
# What sending does to a connection table

A request or a notification goes out on a new connection that is made for it, or the table
holds the connections that it held before: no slot was free, or something failed on the way.
An answer is written to the slot that is remembered for it.
-/

open Function

/-- The entry that a message is sent to. An answer goes out on a connection that is there, and
nothing is sent when the process uses freed memory. -/
def Sent.dest : Sent → Option NodeInfo
  | .findSuccessor dest _ _ | .predecessor dest _ | .notify dest _ _ | .alive dest _ => some dest
  | .reply _ _ _ | .useFreed => none

namespace Shows

variable {net net' : NodeNet} {v : ℕ → Option Conn} {k : Fin maxOpenConnections}
  {u : Purpose} {n : NodeInfo}

theorem ask (h : Shows net v) :
  Shows net.ask.2 v
  := h.of_connections rfl ((Advances.ask (R := fun _ => True) net).numbered h.numbered)

theorem crash (h : Shows net v) :
  Shows net.crash v
  := by
  have hsame : Advances (fun _ => True) net net.crash := Advances.same rfl rfl
  exact h.of_connections rfl (hsame.numbered h.numbered)

/-- The connection that a request goes out on. -/
theorem made (h : Shows net v) (hk : (net.connections k).bev = none)
    (hconn : net'.connections = update net.connections k
      (taken (net.connections k) k
        { net.freshBev n.IP with output := u.request.wire, enabled := true }
        (u.request.message n) u.readCb (some u.eventCb) (some u.cbArg)))
    (hnum : net'.Numbered) :
  Shows net' (update v net.nextSerial (some (.made u (n.IP, n.port))))
  := by
  have hdest : (u.request.message n).dest = n := by cases u <;> rfl
  apply h.opened (b := { net.freshBev n.IP with output := u.request.wire, enabled := true }) hconn
    hnum hk rfl
  refine ⟨⟨_, rfl, rfl, rfl, rfl, rfl⟩, ?_, ?_, ?_, ?_⟩
  · rw [taken, hdest]
  · intro cb hcb
    rw [taken, hcb, Option.some_or]
  · rfl
  · rfl

/-- The attempt to send the head of a request: it fails, or it takes a slot. -/
theorem attempt (h : Shows net v) (u : Purpose) (n : NodeInfo) :
  let r := nodeConnectAndSendMessage net (u.request.message n) u.readCb (some u.eventCb)
    (some u.cbArg)
  net.nextSerial ≤ r.2.nextSerial ∧ NodeNet.Numbered r.2
    ∧ (r.1 = -1 ∧ Shows r.2 v
      ∨ ∃ k : Fin maxOpenConnections, r.1 = k.val ∧ (net.connections k).bev = none
        ∧ r.2.nextSerial = net.nextSerial + 1
        ∧ r.2.connections = update net.connections k
          (taken (net.connections k) k
            { net.freshBev n.IP with
              output := (u.request.message nullNode).text, enabled := true }
            (u.request.message n) u.readCb (some u.eventCb) (some u.cbArg)))
  := by
  have hdest : (u.request.message n).dest = n := by cases u <;> rfl
  have htext : (u.request.message n).text = (u.request.message nullNode).text := by
    cases u <;> rfl
  have hadvances := Advances.connectAndSend (R := fun _ => True) net (u.request.message n)
    u.readCb (some u.eventCb) (some u.cbArg) (fun _ _ => trivial)
  have hattempt := nodeConnectAndSendMessage_attempt net (u.request.message n) u.readCb
    (some u.eventCb) (some u.cbArg)
  generalize nodeConnectAndSendMessage net (u.request.message n) u.readCb (some u.eventCb)
    (some u.cbArg) = r at hadvances hattempt
  have hnum := hadvances.numbered h.numbered
  refine ⟨hadvances.nextSerial, hnum, ?_⟩
  cases hattempt with
  | none calls => exact Or.inl ⟨rfl, h.of_connections rfl hnum⟩
  | @lost k hk calls =>
    left
    use rfl
    apply h.unused rfl hnum (netEmptyConnectionSlot_bev hk)
    · intro _
      rfl
    · intro b hb
      cases hb
  | @refused k hk calls =>
    left
    use rfl
    apply h.unused rfl hnum (netEmptyConnectionSlot_bev hk)
    · intro _
      rfl
    · intro b hb
      cases hb
  | @unsent k hk calls =>
    left
    use rfl
    apply h.unused rfl hnum (netEmptyConnectionSlot_bev hk)
    · intro hnone
      cases hnone
    · intro b hb
      cases hb
      exact ⟨rfl, rfl⟩
  | @sent k hk calls =>
    right
    use k, rfl, netEmptyConnectionSlot_bev hk, rfl
    dsimp only
    rw [hdest, htext]

/-- The rest of a request is written to the slot that has been taken. -/
theorem write_body {r : ℤ × NodeNet} (h : Shows net v) (hnum : NodeNet.Numbered r.2)
    (hk : (net.connections k).bev = none)
    (hconn : r.2.connections = update net.connections k
      (taken (net.connections k) k
        { net.freshBev n.IP with output := (u.request.message nullNode).text, enabled := true }
        (u.request.message n) u.readCb (some u.eventCb) (some u.cbArg))) :
  (∃ b, netConnectionGetBuffer r.2 k.val = (some (k, b), r.2))
    ∧ Shows (r.2.write k u.request.body)
      (update v net.nextSerial (some (.made u (n.IP, n.port))))
  := by
  have hbev : (r.2.connections k).bev = some { net.freshBev n.IP with
      output := (u.request.message nullNode).text, enabled := true } := by
    rw [hconn, update_self]
    rfl
  constructor
  · rw [netConnectionGetBuffer, netSlot_coe]
    dsimp only
    rw [hbev]
    exact ⟨_, rfl⟩
  · apply h.made hk
    · change update r.2.connections k { r.2.connections k with
        bev := (r.2.connections k).bev.map fun b =>
          { b with output := b.output ++ u.request.body } } = _
      rw [hbev, hconn, update_self, update_idem]
      rfl
    · exact (Advances.write (R := fun _ => True) r.2 k u.request.body).numbered hnum

end Shows

/-- What sending does to a table that held the connections `v`: there is a new connection for
the message, or there is none. -/
structure Sends (a : Sent) (n : NodeInfo) (v : ℕ → Option Conn) (net net' : NodeNet) : Prop where
  le : net.nextSerial ≤ net'.nextSerial
  conns : Shows net' v
    ∨ ∃ u : Purpose, u.For a ∧ net'.nextSerial = net.nextSerial + 1
      ∧ Shows net' (update v net.nextSerial (some (.made u (n.IP, n.port))))

namespace Shows

variable {net : NodeNet} {v : ℕ → Option Conn} {n : NodeInfo}

/-- A lookup is sent. -/
theorem findSuccessorRemote (h : Shows net v) (n : NodeInfo) (id : HashType) (cb : FoundCb) :
  Sends (.findSuccessor n id cb) n v net (net.findSuccessorRemote n id cb).2
  := by
  let data : NodeFoundCbData := { cb := cb, node := net.ask.1.node, hops := net.ask.1.hops }
  have hask := h.ask
  obtain ⟨hle, hnum, hr⟩ := hask.attempt (.lookup id data) n
  rw [NodeNet.findSuccessorRemote]
  dsimp only [Purpose.request, Purpose.readCb, Purpose.eventCb, Purpose.cbArg, data] at hle hnum hr ⊢
  generalize nodeConnectAndSendMessage net.ask.2 _ _ _ _ = r at hle hnum hr ⊢
  rcases hr with ⟨hr, hshows⟩ | ⟨k, hr, hk, hnext, hconn⟩
  · rw [if_pos (by rw [hr]; decide)]
    exact ⟨hle, Or.inl hshows⟩
  · obtain ⟨⟨b, hget⟩, hshows⟩ := hask.write_body (u := .lookup id data) hnum hk hconn
    rw [if_neg (by rw [hr]; exact Int.not_lt.mpr (Int.natCast_nonneg _)), hr, hget]
    exact ⟨hle, Or.inr ⟨_, .lookup n id data, hnext, hshows⟩⟩

/-- A node is asked for its predecessor. -/
theorem getPredecessorRemote (h : Shows net v) (n : NodeInfo) (cb : FoundCb) :
  Sends (.predecessor n cb) n v net (net.getPredecessorRemote n cb)
  := by
  let data : NodeFoundCbData := { cb := cb, node := net.ask.1.node, hops := net.ask.1.hops }
  have hask := h.ask
  obtain ⟨hle, hnum, hr⟩ := hask.attempt (.predecessor data) n
  rcases hr with ⟨-, hshows⟩ | ⟨k, -, hk, hnext, hconn⟩
  · exact ⟨hle, Or.inl hshows⟩
  · refine ⟨hle, Or.inr ⟨_, .predecessor n data, hnext, ?_⟩⟩
    exact hask.made (u := .predecessor data) hk hconn hnum

/-- A node is probed. -/
theorem checkNode (h : Shows net v) (n : NodeInfo) (cb : CheckCb) :
  Sends (.alive n cb) n v net (net.checkNode n cb)
  := by
  obtain ⟨hle, hnum, hr⟩ := h.attempt (.probe cb) n
  rcases hr with ⟨-, hshows⟩ | ⟨k, -, hk, hnext, hconn⟩
  · exact ⟨hle, Or.inl hshows⟩
  · refine ⟨hle, Or.inr ⟨_, .probe n cb, hnext, ?_⟩⟩
    exact h.made (u := .probe cb) hk hconn hnum

/-- A node is notified. When there is no connection the process has crashed. -/
theorem notifyNode (h : Shows net v) (self n : NodeInfo) :
  Sends (.notify n self.id self.port) n v net (net.notifyNode self n)
  := by
  obtain ⟨hle, hnum, hr⟩ := h.attempt (.notify self.id self.port) n
  rw [NodeNet.notifyNode]
  dsimp only [Purpose.request, Purpose.readCb, Purpose.eventCb, Purpose.cbArg] at hle hnum hr ⊢
  generalize nodeConnectAndSendMessage net _ _ _ _ = r at hle hnum hr ⊢
  rcases hr with ⟨hr, hshows⟩ | ⟨k, hr, hk, hnext, hconn⟩
  · have hget : netConnectionGetBuffer r.2 r.1 = (none, r.2) := by
      rw [hr]
      rfl
    rw [hget]
    exact ⟨hle, Or.inl hshows.crash⟩
  · obtain ⟨⟨b, hget⟩, hshows⟩ := h.write_body (u := .notify self.id self.port) hnum hk hconn
    rw [hr, hget]
    exact ⟨hle, Or.inr ⟨_, .notify n self.id self.port, hnext, hshows⟩⟩

/-- Every request, probe and notification. -/
theorem send (h : Shows net v) (s : NodeSelf) {a : Sent} (ha : a.dest = some n) :
  Sends a n v net (a.send s net)
  := by
  cases a with
  | findSuccessor dest id cb =>
    obtain rfl := Option.some.inj ha
    apply h.findSuccessorRemote
  | predecessor dest cb =>
    obtain rfl := Option.some.inj ha
    apply h.getPredecessorRemote
  | notify dest id port =>
    obtain rfl := Option.some.inj ha
    apply h.notifyNode { s.self with id := id, port := port }
  | alive dest cb =>
    obtain rfl := Option.some.inj ha
    apply h.checkNode
  | reply data node hops => cases ha
  | useFreed => cases ha

/-- More is written to a connection that was accepted. -/
theorem write {s : ℕ} {j : Fin maxOpenConnections} {out : List UInt8} (h : Shows net v)
    (hs : v s = some (.taken j out)) (bytes : List UInt8) :
  Shows (net.write j bytes) (update v s (some (.taken j (out ++ bytes))))
  := by
  obtain ⟨k, b, hb, hserial, rfl, hserves⟩ := h.fits hs
  have hnum := (Advances.write (R := fun _ => True) net j bytes).numbered h.numbered
  have hbev : (net.connections j).bev.map (fun b => { b with output := b.output ++ bytes })
      = some { b with output := b.output ++ bytes } := by
    rw [hb, Option.map_some]
  obtain ⟨b', hb', henabled, hinput, hlow, houtput, hpeer⟩ := hserves.bev
  rw [hb] at hb'
  obtain rfl := Option.some.inj hb'
  apply h.changed (b := { b with output := b.output ++ bytes }) rfl hnum _ hbev hserial
  · use rfl
    refine ⟨⟨_, hbev, henabled, hinput, hlow, ?_, hpeer⟩, hserves.sin, hserves.readCb,
      hserves.eventCb, hserves.arg⟩
    rw [← houtput]
  · rw [NodeNet.serialIn, hb, Option.map_some, hserial]

/-- The answer to a lookup that came in on a connection is written to it. -/
theorem successorFoundForRemote {s : ℕ} {j : Fin maxOpenConnections} {out : List UInt8}
    (h : Shows net v) (hs : v s = some (.taken j out)) (n : NodeInfo) (hops : Int16) :
  let data : IncomingHandlerData := { connection := j.val, asker := some s }
  net.successorFoundForRemote data n hops = net.write j (successorReply n (hops + 1))
  := by
  obtain ⟨k, b, hb, -, rfl, -⟩ := h.fits hs
  exact NodeNet.successorFoundForRemote_of_bev hb rfl n hops

end Shows

/-- What a node does to its table looks at no more of the node than its identifier and its
port. -/
theorem selfOnly_nodeNet :
  SelfOnly NodeNet
  := by
  constructor
  · intro net s s' hs n id cb
    rfl
  · intro net s s' hs n cb
    rfl
  · intro net s s' hs n
    change net.notifyNode s.self n = net.notifyNode s'.self n
    rw [hs]
  · intro net s s' hs n cb
    rfl

/-- The node `0`, with the successor `5` and no other node in its tables. -/
def nextIsFive : NodeSelf :=
  { NodeSelf.blank with
    successor := fun k => if k.val = 0 then { id := 5, IP := 1, port := 1 } else nullNode }

/-- The node answers a lookup of `3` itself. In the callback its application starts a lookup of
`7`, which is asked of the node `5` on a connection that is made for it. -/
theorem run_eq_sendAll_forwarded :
  let p : NodeProcess := Process.boot nextIsFive fun _ => .fine
  let app {ν : Type} : App ν := appOf fun _ arg _ _ => [(7, arg)]
  let o : Operation := .findSuccessor 3 0
  (o.run app 1 p).net = sendAll p.node p.net (o.run app 1 (idle p.node)).net.sent
    ∧ (o.run app 1 (idle p.node)).net.sent
      = [.findSuccessor { id := 5, IP := 1, port := 1 } 7 (.app 0)]
    ∧ ((o.run app 1 p).net.connections 0).bev.map Bufferevent.output
      = some (Request.findSuccessor 7).wire
  := by
  refine ⟨(Operation.run_eq_sendAll _ selfOnly_nodeNet 1 _ (.findSuccessor 3 0)).2, ?_, ?_⟩
  · decide +kernel
  · decide +kernel
