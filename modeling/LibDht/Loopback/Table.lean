import LibDht.Loopback.Step
import LibDht.Net.Framing
import LibDht.Node.Replay

/-!
# What a connection table stands for

A slot of a connection table holds buffers, callbacks and an argument. What these stand for
is said once here: a connection that the node has made for a purpose and that waits, or one
that it has accepted, with what was written to it. `Shows net v` says that the table `net`
holds the connections `v`, by their serials, and besides them nothing but slots that are
empty and slots whose sockets were never connected.

Every operation of a node then comes down to one of four changes: a connection is made, one
is taken, one is written to, and one is closed.
-/

open Function

/-- What a node makes a connection for: a lookup, to ask for a predecessor, to probe, or to
notify. -/
inductive Purpose where
  | lookup (id : HashType) (data : NodeFoundCbData)
  | predecessor (data : NodeFoundCbData)
  | probe (cb : CheckCb)
  | notify (id : HashType) (port : UInt16)

namespace Purpose

/-- The request that is sent on the connection. -/
def request : Purpose → Request
  | .lookup id _ => .findSuccessor id
  | .predecessor _ => .predecessor
  | .probe _ => .alive
  | .notify id port => .notify id port

/-- The callback that reads the reply. None is set for a notification. -/
def readCb : Purpose → Option DataCb
  | .lookup _ _ | .predecessor _ => some .nodeFoundRemoteCb
  | .probe _ => some .nodeCheckNodeReply
  | .notify _ _ => none

/-- The callback for events. -/
def eventCb : Purpose → EventCb
  | .lookup _ _ | .predecessor _ => .nodeRemoteFindEvent
  | .probe _ => .nodeCheckNodeEvent
  | .notify _ _ => .nodeNotifyRepEvent

/-- The argument of the callbacks. -/
def cbArg : Purpose → CbArg
  | .lookup _ data | .predecessor data => .found data
  | .probe cb => .check cb
  | .notify _ _ => .self

/-- What a node in the reply is filled in. -/
def found : Purpose → Option NodeFoundCbData
  | .lookup _ data | .predecessor data => some data
  | .probe _ | .notify _ _ => none

/-- The purpose of the connection that a message is sent on. -/
inductive For : Sent → Purpose → Prop where
  | lookup (dest : NodeInfo) (id : HashType) (data : NodeFoundCbData) :
      For (.findSuccessor dest id data.cb) (.lookup id data)
  | predecessor (dest : NodeInfo) (data : NodeFoundCbData) :
      For (.predecessor dest data.cb) (.predecessor data)
  | probe (dest : NodeInfo) (cb : CheckCb) : For (.alive dest cb) (.probe cb)
  | notify (dest : NodeInfo) (id : HashType) (port : UInt16) :
      For (.notify dest id port) (.notify id port)

end Purpose

/-- The slots of a node. -/
abbrev Slot : Type :=
  NetConnection DataCb EventCb CbArg

/-- A connection: one that the node has made to an address, or one that it has accepted, its
slot and what was written to it. -/
inductive Conn where
  | made (u : Purpose) (sin : UInt32 × UInt16)
  | taken (j : Fin maxOpenConnections) (out : List UInt8)

/-- The slot holds a connection that was made for the purpose `u`, with the request in its
output, and waits. -/
structure Dials (c : Slot) (u : Purpose) (sin : UInt32 × UInt16) : Prop where
  bev : ∃ b, c.bev = some b ∧ b.enabled = true ∧ b.input = [] ∧ b.low = 0
    ∧ b.output = u.request.wire
  sin : c.sin = sin
  readCb : ∀ cb, u.readCb = some cb → c.readCb = some cb
  eventCb : c.evtCb = some u.eventCb
  arg : c.upperCbArg = some u.cbArg

/-- The slot holds a connection that was accepted, from which all that arrived has been read,
with the output `out`. -/
structure Serves (c : Slot) (out : List UInt8) : Prop where
  bev : ∃ b, c.bev = some b ∧ b.enabled = true ∧ b.input = [] ∧ b.low = headerBytes
    ∧ b.output = out ∧ b.peer = 0x7F000001
  sin : c.sin = (0, 0)
  readCb : c.readCb = some .incomingReadCb
  eventCb : c.evtCb = some .incomingEventCb
  arg : c.upperCbArg = some .self

/-- The slot `c` with the number `k` holds the connection. -/
def Conn.Fits (k : Fin maxOpenConnections) (c : Slot) : Conn → Prop
  | .made u sin => Dials c u sin
  | .taken j out => j = k ∧ Serves c out

/-- The table `net` holds the connections `v`, and slots that are empty or of no use. -/
structure Shows (net : NodeNet) (v : ℕ → Option Conn) : Prop where
  numbered : net.Numbered
  empty : ∀ k, (net.connections k).bev = none → (net.connections k).sin = (0, 0)
  slot : ∀ k b, (net.connections k).bev = some b →
    (∃ x, v b.serial = some x ∧ x.Fits k (net.connections k))
      ∨ b.enabled = false ∧ v b.serial = none
  conn : ∀ s x, v s = some x → ∃ k, net.serialIn k = some s

namespace Shows

variable {net net' : NodeNet} {v : ℕ → Option Conn} {k : Fin maxOpenConnections} {s : ℕ}
  {x : Conn} {b : Bufferevent}

/-- The slot of a connection. -/
theorem fits (h : Shows net v) (hs : v s = some x) :
  ∃ k b, (net.connections k).bev = some b ∧ b.serial = s ∧ x.Fits k (net.connections k)
  := by
  obtain ⟨k, hk⟩ := h.conn s x hs
  obtain ⟨b, hb, hserial⟩ := Option.map_eq_some_iff.mp hk
  subst hserial
  refine ⟨k, b, hb, rfl, ?_⟩
  rcases h.slot k b hb with ⟨y, hy, hfits⟩ | ⟨-, hnone⟩
  · rw [hs] at hy
    obtain rfl := Option.some.inj hy
    apply hfits
  · rw [hs] at hnone
    cases hnone

/-- The connection in a slot whose socket is connected. -/
theorem of_enabled (h : Shows net v) (hb : (net.connections k).bev = some b)
    (henabled : b.enabled = true) :
  ∃ x, v b.serial = some x ∧ x.Fits k (net.connections k)
  := by
  rcases h.slot k b hb with hx | ⟨hdisabled, -⟩
  · apply hx
  · rw [henabled] at hdisabled
    cases hdisabled

/-- A serial in no slot is that of no connection. -/
theorem eq_none (h : Shows net v) (hs : ∀ k, net.serialIn k ≠ some s) :
  v s = none
  := by
  cases hx : v s with
  | none => rfl
  | some x =>
    obtain ⟨k, hk⟩ := h.conn s x hx
    exact absurd hk (hs k)

/-- Nothing changes in the slots. -/
theorem of_connections (h : Shows net v) (hconn : net'.connections = net.connections)
    (hnum : net'.Numbered) :
  Shows net' v
  := by
  constructor
  · apply hnum
  · rw [hconn]
    apply h.empty
  · rw [hconn]
    apply h.slot
  · intro s x hs
    obtain ⟨k, hk⟩ := h.conn s x hs
    use k
    rw [NodeNet.serialIn, hconn]
    apply hk

/-- The slot `k` changes, and with it the connections that it held and holds. -/
theorem of_update (h : Shows net v) {v' : ℕ → Option Conn} {c : Slot}
    (hconn : net'.connections = update net.connections k c) (hnum : net'.Numbered)
    (hempty : c.bev = none → c.sin = (0, 0))
    (hslot : ∀ b, c.bev = some b →
      (∃ x, v' b.serial = some x ∧ x.Fits k c) ∨ b.enabled = false ∧ v' b.serial = none)
    (hother : ∀ s, net.serialIn k ≠ some s → c.bev.map Bufferevent.serial ≠ some s → v' s = v s)
    (hgone : ∀ s, net.serialIn k = some s → c.bev.map Bufferevent.serial ≠ some s → v' s = none) :
  Shows net' v'
  := by
  have hself : net'.connections k = c := by rw [hconn, update_self]
  have hne : ∀ j, j ≠ k → net'.connections j = net.connections j := by
    intro j hj
    rw [hconn, update_of_ne hj]
  have hserial : net'.serialIn k = c.bev.map Bufferevent.serial := by rw [NodeNet.serialIn, hself]
  have hserial' : ∀ j, j ≠ k → net'.serialIn j = net.serialIn j := by
    intro j hj
    rw [NodeNet.serialIn, hne j hj, NodeNet.serialIn]
  constructor
  · apply hnum
  · intro j hj
    by_cases hjk : j = k
    · subst hjk
      rw [hself] at hj ⊢
      apply hempty hj
    · rw [hne j hjk] at hj ⊢
      apply h.empty j hj
  · intro j b hb
    by_cases hjk : j = k
    · subst hjk
      rw [hself] at hb ⊢
      apply hslot b hb
    · have hbj : net'.serialIn j = some b.serial := by rw [NodeNet.serialIn, hb, Option.map_some]
      have hv : v' b.serial = v b.serial := by
        apply hother
        · intro hk
          rw [hserial' j hjk] at hbj
          exact hjk (h.numbered.eq hbj hk)
        · intro hc
          rw [← hserial] at hc
          exact hjk (hnum.eq hbj hc)
      rw [hne j hjk] at hb ⊢
      rw [hv]
      apply h.slot j b hb
  · intro s x hs
    by_cases hc : c.bev.map Bufferevent.serial = some s
    · use k
      rw [hserial, hc]
    · by_cases hk : net.serialIn k = some s
      · rw [hgone s hk hc] at hs
        cases hs
      · rw [hother s hk hc] at hs
        obtain ⟨j, hj⟩ := h.conn s x hs
        use j
        rw [hserial' j, hj]
        rintro rfl
        exact hk hj

/-- A new connection in an empty slot. -/
theorem opened (h : Shows net v) {c : Slot}
    (hconn : net'.connections = update net.connections k c) (hnum : net'.Numbered)
    (hk : (net.connections k).bev = none) (hb : c.bev = some b) (hx : x.Fits k c) :
  Shows net' (update v b.serial (some x))
  := by
  have hold : net.serialIn k = none := by rw [NodeNet.serialIn, hk, Option.map_none]
  apply h.of_update hconn hnum
  · intro hnone
    rw [hb] at hnone
    cases hnone
  · intro b' hb'
    rw [hb] at hb'
    obtain rfl := Option.some.inj hb'
    left
    use x, update_self .., hx
  · intro s _ hs
    apply update_of_ne
    rintro rfl
    apply hs
    rw [hb, Option.map_some]
  · intro s hs
    rw [hold] at hs
    cases hs

/-- An empty slot stays empty, or is taken for a connection that is never used. -/
theorem unused (h : Shows net v) {c : Slot}
    (hconn : net'.connections = update net.connections k c) (hnum : net'.Numbered)
    (hk : (net.connections k).bev = none) (hempty : c.bev = none → c.sin = (0, 0))
    (hc : ∀ b, c.bev = some b → b.enabled = false ∧ b.serial = net.nextSerial) :
  Shows net' v
  := by
  have hold : net.serialIn k = none := by rw [NodeNet.serialIn, hk, Option.map_none]
  apply h.of_update hconn hnum hempty
  · intro b hb
    obtain ⟨hdisabled, hserial⟩ := hc b hb
    right
    use hdisabled
    apply h.eq_none
    intro j hj
    rw [hserial] at hj
    exact lt_irrefl _ (h.numbered.lt hj)
  · intro s _ _
    rfl
  · intro s hs
    rw [hold] at hs
    cases hs

/-- A connection is closed. -/
theorem closed (h : Shows net v) {c : Slot}
    (hconn : net'.connections = update net.connections k c) (hnum : net'.Numbered)
    (hs : net.serialIn k = some s) (hbev : c.bev = none) (hsin : c.sin = (0, 0)) :
  Shows net' (update v s none)
  := by
  apply h.of_update hconn hnum
  · intro _
    apply hsin
  · intro b hb
    rw [hbev] at hb
    cases hb
  · intro t ht _
    apply update_of_ne
    rintro rfl
    exact ht hs
  · intro t ht _
    rw [hs] at ht
    obtain rfl := Option.some.inj ht
    apply update_self

/-- A connection changes. -/
theorem changed (h : Shows net v) {c : Slot}
    (hconn : net'.connections = update net.connections k c) (hnum : net'.Numbered)
    (hs : net.serialIn k = some s) (hb : c.bev = some b) (hserial : b.serial = s)
    (hx : x.Fits k c) :
  Shows net' (update v s (some x))
  := by
  have hnew : c.bev.map Bufferevent.serial = some s := by rw [hb, Option.map_some, hserial]
  apply h.of_update hconn hnum
  · intro hnone
    rw [hb] at hnone
    cases hnone
  · intro b' hb'
    rw [hb] at hb'
    obtain rfl := Option.some.inj hb'
    left
    rw [hserial]
    use x, update_self .., hx
  · intro t ht _
    apply update_of_ne
    rintro rfl
    exact ht hs
  · intro t ht ht'
    rw [hs] at ht
    obtain rfl := Option.some.inj ht
    exact absurd hnew ht'

end Shows
