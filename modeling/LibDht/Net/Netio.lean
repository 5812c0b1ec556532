import LibDht.Node.Info
import Mathlib.Data.Fin.Tuple.Basic
import Mathlib.Logic.Function.Basic

/-!
# The connection table

A server keeps its connections in a table of `maxOpenConnections` slots, and they are known
by the numbers of their slots. A slot is empty when it has no `bufferevent`; creating and
accepting a connection take the first empty one, and closing a connection empties its
slot. The functions are those of `netio.c`, over any types `D`, `E` and `A` of data
callbacks, event callbacks and callback arguments, `none` being the null pointer.

What libevent, `malloc` and the sockets answer comes from the list of outcomes that the
server carries. Using the `bufferevent` of an empty slot is a use of a null pointer, after
which the server has crashed. The `serial` of a `bufferevent` is not in the source: it
counts those that were made, so that connections which occupied one slot after another can
be told apart.
-/

/-- The number of slots of the connection table. -/
abbrev maxOpenConnections : ℕ := 256

instance : @NeZero ℕ Zero.ofOfNat0 maxOpenConnections := ⟨Nat.succ_ne_zero 255⟩

/-- A `bufferevent` with its two buffers and its low watermark for reading. The field `peer`
is the address that `getpeername` finds, and `enabled` tells that its socket is connected
and its events are delivered. -/
structure Bufferevent where
  serial : ℕ
  input : List UInt8
  output : List UInt8
  low : ℕ
  enabled : Bool
  peer : UInt32
  deriving DecidableEq, Repr

/-- A slot of the table: `struct net_connection`. The argument `net_cb_arg` of the
bufferevent callbacks is the number of the slot. -/
structure NetConnection (D E A : Type) where
  bev : Option Bufferevent
  sin : UInt32 × UInt16
  readCb : Option D
  writeCb : Option D
  evtCb : Option E
  upperCbArg : Option A
  netCbArg : Option ℤ

/-- What the environment answers: whether a `bufferevent` is made, memory found, a message
formatted, a connection started and an event made, and what memory holds that nobody has
written; `tail` are three bytes behind a string. -/
structure Outcome where
  bevNew : Bool
  malloc : Bool
  printf : Bool
  connect : Bool
  eventNew : Bool
  node : NodeInfo
  hops : Int16
  byte : UInt8
  tail : UInt8 × UInt8 × UInt8
  deriving DecidableEq, Repr

/-- Everything succeeds, and memory is zero. -/
def Outcome.fine : Outcome where
  bevNew := true
  malloc := true
  printf := true
  connect := true
  eventNew := true
  node := nullNode
  hops := 0
  byte := 0
  tail := (0, 0, 0)

/-- A server: `struct net_server`. -/
structure NetServer (D E A : Type) where
  connections : Fin maxOpenConnections → NetConnection D E A
  nextSerial : ℕ
  outcome : ℕ → Outcome
  calls : ℕ
  crashed : Bool

/-- The slot with a given number. -/
def netSlot (connection : ℤ) : Option (Fin maxOpenConnections) :=
  if h : 0 ≤ connection ∧ connection < maxOpenConnections then some ⟨connection.toNat, by omega⟩
  else none

@[simp]
theorem netSlot_coe (i : Fin maxOpenConnections) :
  netSlot (i.val : ℤ) = some i
  := by
  have hi := i.isLt
  rw [netSlot]
  rw [dif_pos (by omega)]
  simp

theorem netSlot_eq_some {connection : ℤ} {i : Fin maxOpenConnections}
    (h : netSlot connection = some i) :
  connection = i.val
  := by
  unfold netSlot at h
  split at h
  · obtain rfl := Option.some.inj h
    simp only
    omega
  · cases h

namespace NetServer

variable {D E A : Type}

/-- A server whose slots are all empty and have never been used. -/
def empty (outcome : ℕ → Outcome) : NetServer D E A where
  connections _ :=
    { bev := none, sin := (0, 0), readCb := none, writeCb := none, evtCb := none
      upperCbArg := none, netCbArg := none }
  nextSerial := 0
  outcome := outcome
  calls := 0
  crashed := false

/-- The next answer of the environment. -/
def ask (srv : NetServer D E A) : Outcome × NetServer D E A :=
  (srv.outcome srv.calls, { srv with calls := srv.calls + 1 })

def crash (srv : NetServer D E A) : NetServer D E A :=
  { srv with crashed := true }

/-- The server after a change to the slot `i`. -/
def modify (srv : NetServer D E A) (i : Fin maxOpenConnections)
    (f : NetConnection D E A → NetConnection D E A) : NetServer D E A :=
  { srv with connections := Function.update srv.connections i (f (srv.connections i)) }

/-- A new `bufferevent` for a peer. -/
def freshBev (srv : NetServer D E A) (peer : UInt32) : Bufferevent where
  serial := srv.nextSerial
  input := []
  output := []
  low := 0
  enabled := false
  peer := peer

/-- The slot `i` gets a new `bufferevent` for the peer. -/
def newBev (srv : NetServer D E A) (i : Fin maxOpenConnections) (peer : UInt32) :
    NetServer D E A :=
  { srv.modify i (fun c => { c with bev := some (srv.freshBev peer) }) with
    nextSerial := srv.nextSerial + 1 }

/-- A change to the `bufferevent` of the slot `i`. -/
def modifyBev (srv : NetServer D E A) (i : Fin maxOpenConnections) (f : Bufferevent → Bufferevent) :
    NetServer D E A :=
  srv.modify i (fun c => { c with bev := c.bev.map f })

/-- Bytes are added to the output buffer of the slot `i`. -/
def write (srv : NetServer D E A) (i : Fin maxOpenConnections) (bytes : List UInt8) :
    NetServer D E A :=
  srv.modifyBev i (fun b => { b with output := b.output ++ bytes })

/-- The serial of the connection in the slot with the number. -/
def serialAt (srv : NetServer D E A) (connection : ℤ) : Option ℕ :=
  (netSlot connection).bind fun i => (srv.connections i).bev.map Bufferevent.serial

end NetServer

section

variable {D E A : Type}

/-- The first empty slot. -/
@[irreducible]
def netEmptyConnectionSlot (srv : NetServer D E A) : Option (Fin maxOpenConnections) :=
  Fin.find? fun i => (srv.connections i).bev.isNone

/-! ### Callbacks of the bufferevents -/

/-- The data callback that the arrival of data calls, with its arguments. -/
def netConnectionReadCb (srv : NetServer D E A) (ctx : ℤ) : Option (D × ℤ × Option A) :=
  (netSlot ctx).bind fun i =>
    (srv.connections i).readCb.map fun cb => (cb, ctx, (srv.connections i).upperCbArg)

/-- The data callback that a drained write buffer calls. -/
def netConnectionWriteCb (srv : NetServer D E A) (ctx : ℤ) : Option (D × ℤ × Option A) :=
  (netSlot ctx).bind fun i =>
    (srv.connections i).writeCb.map fun cb => (cb, ctx, (srv.connections i).upperCbArg)

/-- The event callback that an event of the connection calls. -/
def netConnectionEventCb (srv : NetServer D E A) (ctx : ℤ) : Option (E × ℤ × Option A) :=
  (netSlot ctx).bind fun i =>
    (srv.connections i).evtCb.map fun cb => (cb, ctx, (srv.connections i).upperCbArg)

theorem netConnectionReadCb_coe (srv : NetServer D E A) (i : Fin maxOpenConnections) :
  netConnectionReadCb srv i.val
    = (srv.connections i).readCb.map fun cb => (cb, (i.val : ℤ), (srv.connections i).upperCbArg)
  := by
  rw [netConnectionReadCb, netSlot_coe, Option.bind_some]

theorem netConnectionWriteCb_coe (srv : NetServer D E A) (i : Fin maxOpenConnections) :
  netConnectionWriteCb srv i.val
    = (srv.connections i).writeCb.map fun cb => (cb, (i.val : ℤ), (srv.connections i).upperCbArg)
  := by
  rw [netConnectionWriteCb, netSlot_coe, Option.bind_some]

theorem netConnectionEventCb_coe (srv : NetServer D E A) (i : Fin maxOpenConnections) :
  netConnectionEventCb srv i.val
    = (srv.connections i).evtCb.map fun cb => (cb, (i.val : ℤ), (srv.connections i).upperCbArg)
  := by
  rw [netConnectionEventCb, netSlot_coe, Option.bind_some]

/-! ### Management of the connections -/

/-- Close a connection. The callbacks and their argument stay in the slot. -/
def netConnectionClose (srv : NetServer D E A) (connection : ℤ) : NetServer D E A :=
  match netSlot connection with
  | some i => srv.modify i (fun c => { c with bev := none, netCbArg := none, sin := (0, 0) })
  | none => srv

/-- Initialise a connection to another node; a negative number is an error. -/
def netConnectionCreate (srv : NetServer D E A) (IP : UInt32) (port : UInt16) :
    ℤ × NetServer D E A :=
  match netEmptyConnectionSlot srv with
  | none => (-1, srv)
  | some i =>
    let (o, srv) := srv.ask
    if !o.bevNew then (-1, srv)
    else
      let srv := srv.newBev i IP
      let srv := srv.modify i (fun c => { c with sin := (IP, port) })
      if !o.malloc then (-1, netConnectionClose srv i.val)
      else (i.val, srv.modify i (fun c => { c with netCbArg := some i.val }))

/-- A field of a slot is set; the result is `-1` when there is no such slot. -/
def netConnectionSet (srv : NetServer D E A) (connection : ℤ)
    (f : NetConnection D E A → NetConnection D E A) : ℤ × NetServer D E A :=
  match netSlot connection with
  | some i => (0, srv.modify i f)
  | none => (-1, srv)

def netConnectionSetReadCb (srv : NetServer D E A) (connection : ℤ) (cb : Option D) :
    ℤ × NetServer D E A :=
  netConnectionSet srv connection (fun c => { c with readCb := cb })

def netConnectionSetWriteCb (srv : NetServer D E A) (connection : ℤ) (cb : Option D) :
    ℤ × NetServer D E A :=
  netConnectionSet srv connection (fun c => { c with writeCb := cb })

def netConnectionSetEventCb (srv : NetServer D E A) (connection : ℤ) (cb : Option E) :
    ℤ × NetServer D E A :=
  netConnectionSet srv connection (fun c => { c with evtCb := cb })

def netConnectionSetCbArg (srv : NetServer D E A) (connection : ℤ) (cbArg : Option A) :
    ℤ × NetServer D E A :=
  netConnectionSet srv connection (fun c => { c with upperCbArg := cbArg })

/-- Open a connection and begin I/O on it. -/
def netConnectionActivate (srv : NetServer D E A) (connection : ℤ) : ℤ × NetServer D E A :=
  match netSlot connection with
  | none => (-1, srv)
  | some i =>
    match (srv.connections i).bev with
    | none => (-1, srv.crash)
    | some _ =>
      let (o, srv) := srv.ask
      if !o.connect then (-1, netConnectionClose srv connection)
      else (0, srv.modifyBev i (fun b => { b with enabled := true }))

/-- The `bufferevent` of a connection, whose buffers `net_connection_get_read_buffer` and
`net_connection_get_write_buffer` give: a null pointer when there is no such slot, a crash
when the slot is empty. -/
def netConnectionGetBuffer (srv : NetServer D E A) (connection : ℤ) :
    Option (Fin maxOpenConnections × Bufferevent) × NetServer D E A :=
  match netSlot connection with
  | none => (none, srv)
  | some i =>
    match (srv.connections i).bev with
    | none => (none, srv.crash)
    | some b => (some (i, b), srv)

/-- Accept a connection and have the incoming handler set it up. -/
def listenEvtCb (srv : NetServer D E A) (peer : UInt32)
    (incomingHandler : ℤ → NetServer D E A → NetServer D E A) : NetServer D E A :=
  match netEmptyConnectionSlot srv with
  | none => srv
  | some i =>
    let (o, srv) := srv.ask
    if !o.bevNew then srv
    else
      let srv := srv.newBev i peer
      if !o.malloc then netConnectionClose srv i.val
      else
        let srv := srv.modify i (fun c => { c with netCbArg := some i.val })
        let srv := incomingHandler i.val srv
        srv.modifyBev i (fun b => { b with enabled := true })

end
