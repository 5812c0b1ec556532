import LibDht.Net.Message
import Mathlib.Data.Set.Insert

/-!
# Who owns a slot

A slot of the connection table counts as empty by its `bev` alone, while its `net_cb_arg` is
allocated, freed and tested on its own. Here the table is followed at that grain: the
`net_cb_arg` of a slot is a record that names a slot and a server, and a `bufferevent` has
the record that it was given as the argument of its callbacks. The numbers of the slots that
were handed out and not closed since are kept beside the table, so that one can say which
connections are open without looking at it.
-/

/-- The argument of the callbacks of a `bufferevent`: `struct net_conn_cb_arg`. A server is
known by its address. -/
structure NetConnCbArg where
  conn : ℤ
  srv : ℕ
  deriving DecidableEq, Repr

/-- A `bufferevent`, and the argument that its callbacks were set with. -/
structure SlotBev where
  serial : ℕ
  ctx : Option NetConnCbArg
  deriving DecidableEq, Repr

/-- What opening and closing connections use of a `struct net_connection`. -/
structure TableSlot where
  bev : Option SlotBev
  sin : UInt32 × UInt16
  netCbArg : Option NetConnCbArg
  deriving DecidableEq, Repr

/-- The connection table of the server at an address. -/
structure SlotTable where
  address : ℕ
  slots : Fin maxOpenConnections → TableSlot
  made : ℕ
  outcome : ℕ → Outcome
  calls : ℕ

namespace SlotTable

/-- A table whose slots are all empty. -/
def empty (address : ℕ) (outcome : ℕ → Outcome) : SlotTable where
  address := address
  slots _ := { bev := none, sin := (0, 0), netCbArg := none }
  made := 0
  outcome := outcome
  calls := 0

/-- The next answer of the environment. -/
def ask (t : SlotTable) : Outcome × SlotTable :=
  (t.outcome t.calls, { t with calls := t.calls + 1 })

def modify (t : SlotTable) (i : Fin maxOpenConnections) (f : TableSlot → TableSlot) : SlotTable :=
  { t with slots := Function.update t.slots i (f (t.slots i)) }

/-- The slot `i` gets a new `bufferevent`, whose callbacks are not set. -/
def newBev (t : SlotTable) (i : Fin maxOpenConnections) : SlotTable :=
  { t.modify i (fun c => { c with bev := some ⟨t.made, none⟩ }) with made := t.made + 1 }

/-- The slots that are occupied. -/
def occupied (t : SlotTable) : Set (Fin maxOpenConnections) :=
  { i | (t.slots i).bev.isSome = true }

/-- The first empty slot. -/
@[irreducible]
def netEmptyConnectionSlot (t : SlotTable) : Option (Fin maxOpenConnections) :=
  Fin.find? fun i => (t.slots i).bev.isNone

/-- Close a connection. -/
def netConnectionClose (t : SlotTable) (connection : ℤ) : SlotTable :=
  match netSlot connection with
  | some i => t.modify i (fun c => { c with bev := none, netCbArg := none, sin := (0, 0) })
  | none => t

/-- What creating and accepting a connection have in common. The slot is handed over when
its `net_cb_arg` is written and the callbacks of its `bufferevent` are set with it; they
differ in the address that is noted. -/
def openSlot (t : SlotTable) (sin : UInt32 × UInt16 → UInt32 × UInt16) :
    Option (Fin maxOpenConnections) × SlotTable :=
  match t.netEmptyConnectionSlot with
  | none => (none, t)
  | some i =>
    let (o, t) := t.ask
    if !o.bevNew then (none, t)
    else
      let t := t.newBev i
      let t := t.modify i (fun c => { c with sin := sin c.sin })
      if !o.malloc then (none, t.netConnectionClose i.val)
      else
        let arg : NetConnCbArg := { conn := i.val, srv := t.address }
        let t := t.modify i (fun c => { c with netCbArg := some arg })
        let setcb (b : SlotBev) : SlotBev := { b with ctx := some arg }
        (some i, t.modify i (fun c => { c with bev := c.bev.map setcb }))

/-- Initialise a connection to another node; a negative number is an error. -/
def netConnectionCreate (t : SlotTable) (IP : UInt32) (port : UInt16) : ℤ × SlotTable :=
  match t.openSlot (fun _ => (IP, port)) with
  | (some i, t) => (i.val, t)
  | (none, t) => (-1, t)

/-- Accept a connection: the slot whose number the incoming handler is called with. -/
def listenEvtCb (t : SlotTable) : Option (Fin maxOpenConnections) × SlotTable :=
  t.openSlot id

end SlotTable

/-- What is done to a table. -/
inductive SlotOp where
  | create (IP : UInt32) (port : UInt16)
  | accept (peer : UInt32)
  | close (connection : ℤ)
  deriving DecidableEq, Repr

/-- The operation asks for a slot. -/
def SlotOp.Opens : SlotOp → Prop
  | .close _ => False
  | _ => True

/-- What an operation does to a table, with the slot that it hands out. -/
def SlotOp.run (t : SlotTable) : SlotOp → Option (Fin maxOpenConnections) × SlotTable
  | .create IP port =>
    let (connection, t) := t.netConnectionCreate IP port
    (netSlot connection, t)
  | .accept _ => t.listenEvtCb
  | .close connection => (none, t.netConnectionClose connection)

/-- A table with the connections that are open: each is known by the count of those that were
made before it, and has the slot that was handed out for it. -/
structure SlotHistory where
  table : SlotTable
  opened : List (ℕ × Fin maxOpenConnections)

/-- The connections that are open after an operation: a slot that is handed out makes one
more, and closing the number of a slot ends those that were made in it. -/
def SlotHistory.step (h : SlotHistory) (op : SlotOp) : SlotHistory where
  table := (op.run h.table).2
  opened :=
    match op with
    | .close connection => h.opened.filter fun c => (c.2.val : ℤ) ≠ connection
    | _ =>
      match (op.run h.table).1 with
      | some i => (h.table.made, i) :: h.opened
      | none => h.opened

/-- A run from a table whose slots are all empty. -/
def SlotHistory.run (address : ℕ) (outcome : ℕ → Outcome) (ops : List SlotOp) : SlotHistory :=
  ops.foldl SlotHistory.step { table := SlotTable.empty address outcome, opened := [] }

/-! ### Whom an event reaches -/

section

variable {D E A : Type}

/-- The data callback that `net_connection_read_cb` calls: the server and the number of the
slot are those of its argument. -/
def dispatchRead (servers : ℕ → NetServer D E A) (ctx : NetConnCbArg) : Option (D × ℤ × Option A) :=
  netConnectionReadCb (servers ctx.srv) ctx.conn

/-- The data callback that `net_connection_write_cb` calls. -/
def dispatchWrite (servers : ℕ → NetServer D E A) (ctx : NetConnCbArg) :
    Option (D × ℤ × Option A) :=
  netConnectionWriteCb (servers ctx.srv) ctx.conn

/-- The event callback that `net_connection_event_cb` calls. -/
def dispatchEvent (servers : ℕ → NetServer D E A) (ctx : NetConnCbArg) :
    Option (E × ℤ × Option A) :=
  netConnectionEventCb (servers ctx.srv) ctx.conn

end

/-- The callbacks that are called with the argument are those that the slot `i` of the server
at the address has, whatever the servers are: no other slot's. -/
structure NetConnCbArg.Reaches (arg : NetConnCbArg) (address : ℕ) (i : Fin maxOpenConnections) :
    Prop where
  read : ∀ (D E A : Type) (servers : ℕ → NetServer D E A),
    dispatchRead servers arg = ((servers address).connections i).readCb.map fun cb =>
      (cb, (i.val : ℤ), ((servers address).connections i).upperCbArg)
  write : ∀ (D E A : Type) (servers : ℕ → NetServer D E A),
    dispatchWrite servers arg = ((servers address).connections i).writeCb.map fun cb =>
      (cb, (i.val : ℤ), ((servers address).connections i).upperCbArg)
  event : ∀ (D E A : Type) (servers : ℕ → NetServer D E A),
    dispatchEvent servers arg = ((servers address).connections i).evtCb.map fun cb =>
      (cb, (i.val : ℤ), ((servers address).connections i).upperCbArg)

theorem NetConnCbArg.reaches (address : ℕ) (i : Fin maxOpenConnections) :
  NetConnCbArg.Reaches { conn := i.val, srv := address } address i
  := by
  constructor
  · intro D E A servers
    simp [dispatchRead, netConnectionReadCb]
  · intro D E A servers
    simp [dispatchWrite, netConnectionWriteCb]
  · intro D E A servers
    simp [dispatchEvent, netConnectionEventCb]

/-! ### What an operation does -/

namespace SlotTable

theorem netEmptyConnectionSlot_eq_find (t : SlotTable) :
  t.netEmptyConnectionSlot = Fin.find? fun i => (t.slots i).bev.isNone
  := by
  unfold netEmptyConnectionSlot
  rfl

theorem netEmptyConnectionSlot_bev {t : SlotTable} {i : Fin maxOpenConnections}
    (h : t.netEmptyConnectionSlot = some i) :
  (t.slots i).bev = none
  := by
  rw [netEmptyConnectionSlot_eq_find] at h
  simpa using (Fin.find?_eq_some_iff.mp h).1

theorem occupied_of_netEmptyConnectionSlot {t : SlotTable}
    (h : t.netEmptyConnectionSlot = none) :
  t.occupied = Set.univ
  := by
  rw [netEmptyConnectionSlot_eq_find] at h
  rw [Set.eq_univ_iff_forall]
  intro i
  have hi := Fin.find?_eq_none_iff.mp h i
  simpa [occupied, Option.isSome_iff_ne_none] using hi

/-- The table after the slot `i` was taken and lost again. -/
def lost (t : SlotTable) (i : Fin maxOpenConnections) : SlotTable :=
  { t with
    slots := Function.update t.slots i { bev := none, sin := (0, 0), netCbArg := none }
    made := t.made + 1
    calls := t.calls + 1 }

/-- The table after the slot `i` was handed over. -/
def handed (t : SlotTable) (i : Fin maxOpenConnections)
    (sin : UInt32 × UInt16 → UInt32 × UInt16) : SlotTable :=
  { t with
    slots := Function.update t.slots i
      { bev := some { serial := t.made, ctx := some { conn := i.val, srv := t.address } }
        sin := sin (t.slots i).sin
        netCbArg := some { conn := i.val, srv := t.address } }
    made := t.made + 1
    calls := t.calls + 1 }

/-- The ways in which asking for a slot can end. -/
inductive Opening (t : SlotTable) (sin : UInt32 × UInt16 → UInt32 × UInt16) :
    Option (Fin maxOpenConnections) × SlotTable → Prop where
  | full (h : t.netEmptyConnectionSlot = none) : Opening t sin (none, t)
  | noBev (h : (t.outcome t.calls).bevNew = false) :
      Opening t sin (none, { t with calls := t.calls + 1 })
  | noMemory {i : Fin maxOpenConnections} (hi : t.netEmptyConnectionSlot = some i)
      (h : (t.outcome t.calls).malloc = false) : Opening t sin (none, t.lost i)
  | handed {i : Fin maxOpenConnections} (hi : t.netEmptyConnectionSlot = some i) :
      Opening t sin (some i, t.handed i sin)

theorem openSlot_of_slot {t : SlotTable} {i : Fin maxOpenConnections}
    (hi : t.netEmptyConnectionSlot = some i) (sin : UInt32 × UInt16 → UInt32 × UInt16) :
  t.openSlot sin
    = if (t.outcome t.calls).bevNew = true then
        if (t.outcome t.calls).malloc = true then (some i, t.handed i sin)
        else (none, t.lost i)
      else (none, { t with calls := t.calls + 1 })
  := by
  rw [openSlot]
  simp only [hi, ask]
  by_cases hbev : (t.outcome t.calls).bevNew = true
  · by_cases hmalloc : (t.outcome t.calls).malloc = true
    · simp [hbev, hmalloc, newBev, modify, SlotTable.handed]
    · simp [hbev, hmalloc, newBev, modify, netConnectionClose, lost]
  · simp [hbev]

theorem openSlot_opening (t : SlotTable) (sin : UInt32 × UInt16 → UInt32 × UInt16) :
  Opening t sin (t.openSlot sin)
  := by
  cases hi : t.netEmptyConnectionSlot with
  | none =>
    rw [openSlot, hi]
    exact Opening.full hi
  | some i =>
    rw [openSlot_of_slot hi]
    split_ifs with hbev hmalloc
    · exact Opening.handed hi
    · exact Opening.noMemory hi (by simpa using hmalloc)
    · exact Opening.noBev (by simpa using hbev)

end SlotTable

theorem SlotOp.run_opening {op : SlotOp} (hop : op.Opens) (t : SlotTable) :
  ∃ sin, SlotTable.Opening t sin (op.run t)
  := by
  cases op with
  | create IP port =>
    use fun _ => (IP, port)
    have h := t.openSlot_opening (fun _ => (IP, port))
    rw [SlotOp.run, SlotTable.netConnectionCreate]
    rcases hr : t.openSlot (fun _ => (IP, port)) with ⟨o, t'⟩
    rw [hr] at h
    cases o with
    | none => exact h
    | some i => simpa using h
  | accept peer => exact ⟨id, t.openSlot_opening id⟩
  | close connection => exact absurd hop not_false

/-! ### The invariant -/

/-- The serial of the `bufferevent` in a slot. -/
def SlotTable.serialIn (t : SlotTable) (i : Fin maxOpenConnections) : Option ℕ :=
  (t.slots i).bev.map SlotBev.serial

/-- The slot `i` of the server at an address is in order: without a `bufferevent` it has no
`net_cb_arg`; with one it has the `net_cb_arg` that names it and its server, and the
callbacks of its `bufferevent` have the same. -/
inductive TableSlot.InOrder (address : ℕ) (i : Fin maxOpenConnections) : TableSlot → Prop where
  | free (sin : UInt32 × UInt16) :
      InOrder address i { bev := none, sin := sin, netCbArg := none }
  | taken (serial : ℕ) (sin : UInt32 × UInt16) :
      InOrder address i
        { bev := some { serial := serial, ctx := some { conn := i.val, srv := address } }
          sin := sin
          netCbArg := some { conn := i.val, srv := address } }

/-- The slots are in order, and the open connections are those whose `bufferevents` are in
their slots, no two in one slot. -/
structure SlotHistory.Owned (h : SlotHistory) : Prop where
  slots : ∀ i, (h.table.slots i).InOrder h.table.address i
  opened : ∀ s i, (s, i) ∈ h.opened ↔ h.table.serialIn i = some s
  apart : h.opened.Pairwise fun c d => c.2 ≠ d.2

namespace SlotTable

variable {t : SlotTable}

theorem lost_slots_self (t : SlotTable) {i : Fin maxOpenConnections} :
  (t.lost i).slots i = { bev := none, sin := (0, 0), netCbArg := none }
  := by
  simp [lost]

theorem lost_slots_of_ne (t : SlotTable) {i j : Fin maxOpenConnections} (h : j ≠ i) :
  (t.lost i).slots j = t.slots j
  := by
  simp [lost, h]

theorem handed_slots_of_ne (t : SlotTable) (sin : UInt32 × UInt16 → UInt32 × UInt16)
    {i j : Fin maxOpenConnections} (h : j ≠ i) :
  (t.handed i sin).slots j = t.slots j
  := by
  simp [handed, h]

theorem occupied_lost {i : Fin maxOpenConnections} (hi : t.netEmptyConnectionSlot = some i) :
  (t.lost i).occupied = t.occupied
  := by
  ext j
  by_cases hj : j = i
  · subst hj
    simp [occupied, lost_slots_self, netEmptyConnectionSlot_bev hi]
  · simp [occupied, lost_slots_of_ne t hj]

theorem occupied_handed (t : SlotTable) (i : Fin maxOpenConnections)
    (sin : UInt32 × UInt16 → UInt32 × UInt16) :
  (t.handed i sin).occupied = insert i t.occupied
  := by
  ext j
  by_cases hj : j = i
  · subst hj
    simp [occupied, handed]
  · simp [occupied, handed_slots_of_ne t sin hj, hj]

theorem netConnectionClose_coe (t : SlotTable) (i : Fin maxOpenConnections) :
  t.netConnectionClose i.val
    = t.modify i (fun c => { c with bev := none, netCbArg := none, sin := (0, 0) })
  := by
  simp [netConnectionClose]

theorem netConnectionClose_slots_of_ne (t : SlotTable) {connection : ℤ}
    {j : Fin maxOpenConnections} (h : (j.val : ℤ) ≠ connection) :
  (t.netConnectionClose connection).slots j = t.slots j
  := by
  cases hi : netSlot connection with
  | none => rw [netConnectionClose, hi]
  | some i =>
    obtain rfl := netSlot_eq_some hi
    rw [netConnectionClose_coe, modify]
    refine Function.update_of_ne ?_ _ _
    rintro rfl
    exact h rfl

theorem occupied_netConnectionClose (t : SlotTable) (connection : ℤ) :
  (t.netConnectionClose connection).occupied = t.occupied \ { i | (i.val : ℤ) = connection }
  := by
  ext j
  by_cases hj : (j.val : ℤ) = connection
  · subst hj
    simp [occupied, netConnectionClose_coe, modify]
  · simp [occupied, netConnectionClose_slots_of_ne t hj, hj]

theorem netConnectionClose_idem (t : SlotTable) (connection : ℤ) :
  (t.netConnectionClose connection).netConnectionClose connection
    = t.netConnectionClose connection
  := by
  cases hi : netSlot connection with
  | none => simp [netConnectionClose, hi]
  | some i => simp [netConnectionClose, hi, modify]

end SlotTable

namespace SlotHistory

variable {h : SlotHistory}

theorem owned_empty (address : ℕ) (outcome : ℕ → Outcome) :
  Owned { table := SlotTable.empty address outcome, opened := [] }
  := by
  constructor
  · intro i
    exact TableSlot.InOrder.free (0, 0)
  · intro s i
    simp [SlotTable.serialIn, SlotTable.empty]
  · exact List.Pairwise.nil

theorem Owned.not_mem_opened (hh : h.Owned) {i : Fin maxOpenConnections}
    (hi : h.table.netEmptyConnectionSlot = some i) (s : ℕ) :
  (s, i) ∉ h.opened
  := by
  intro hs
  have := (hh.opened s i).mp hs
  simp [SlotTable.serialIn, SlotTable.netEmptyConnectionSlot_bev hi] at this

theorem Owned.lost (hh : h.Owned) {i : Fin maxOpenConnections}
    (hi : h.table.netEmptyConnectionSlot = some i) :
  Owned { table := h.table.lost i, opened := h.opened }
  := by
  constructor
  · intro j
    by_cases hj : j = i
    · subst hj
      rw [SlotTable.lost_slots_self]
      exact TableSlot.InOrder.free (0, 0)
    · simp only [SlotTable.lost_slots_of_ne _ hj]
      exact hh.slots j
  · intro s j
    rw [hh.opened s j]
    by_cases hj : j = i
    · subst hj
      simp [SlotTable.serialIn, SlotTable.lost_slots_self, SlotTable.netEmptyConnectionSlot_bev hi]
    · simp [SlotTable.serialIn, SlotTable.lost_slots_of_ne _ hj]
  · exact hh.apart

theorem Owned.handed (hh : h.Owned) {i : Fin maxOpenConnections}
    (hi : h.table.netEmptyConnectionSlot = some i) (sin : UInt32 × UInt16 → UInt32 × UInt16) :
  Owned { table := h.table.handed i sin, opened := (h.table.made, i) :: h.opened }
  := by
  constructor
  · intro j
    by_cases hj : j = i
    · subst hj
      simp only [SlotTable.handed, Function.update_self]
      exact TableSlot.InOrder.taken _ _
    · simp only [SlotTable.handed_slots_of_ne _ _ hj]
      exact hh.slots j
  · intro s j
    by_cases hj : j = i
    · subst hj
      simp [SlotTable.serialIn, SlotTable.handed, hh.not_mem_opened hi, eq_comm]
    · simp [SlotTable.serialIn, SlotTable.handed_slots_of_ne _ _ hj, hj, hh.opened s j]
  · refine List.Pairwise.cons ?_ hh.apart
    rintro ⟨s, j⟩ hj rfl
    exact hh.not_mem_opened hi s hj

theorem Owned.close (hh : h.Owned) (connection : ℤ) :
  Owned {
    table := h.table.netConnectionClose connection
    opened := h.opened.filter fun c => (c.2.val : ℤ) ≠ connection }
  := by
  have hslots (j : Fin maxOpenConnections) (hj : (j.val : ℤ) = connection) :
      (h.table.netConnectionClose connection).slots j
        = { bev := none, sin := (0, 0), netCbArg := none } := by
    subst hj
    simp [SlotTable.netConnectionClose_coe, SlotTable.modify]
  have haddress : (h.table.netConnectionClose connection).address = h.table.address := by
    rw [SlotTable.netConnectionClose]
    split <;> rfl
  constructor
  · intro j
    by_cases hj : (j.val : ℤ) = connection
    · simp only [hslots j hj]
      exact TableSlot.InOrder.free (0, 0)
    · simp only [SlotTable.netConnectionClose_slots_of_ne _ hj, haddress]
      exact hh.slots j
  · intro s j
    by_cases hj : (j.val : ℤ) = connection
    · simp [SlotTable.serialIn, hslots j hj, hj]
    · simp [SlotTable.serialIn, SlotTable.netConnectionClose_slots_of_ne _ hj, hj, hh.opened s j]
  · exact hh.apart.filter _

/-- What one operation keeps. -/
theorem Owned.step (hh : h.Owned) (op : SlotOp) :
  (h.step op).Owned
  := by
  have hopens (hop : op.Opens) : Owned {
      table := (op.run h.table).2
      opened := match (op.run h.table).1 with
        | some i => (h.table.made, i) :: h.opened
        | none => h.opened } := by
    obtain ⟨sin, hr⟩ := SlotOp.run_opening hop h.table
    generalize op.run h.table = r at hr
    cases hr with
    | full h0 => exact hh
    | noBev h0 => exact ⟨hh.slots, hh.opened, hh.apart⟩
    | noMemory hi h0 => exact hh.lost hi
    | handed hi => exact hh.handed hi sin
  cases op with
  | create IP port => exact hopens trivial
  | accept peer => exact hopens trivial
  | close connection => exact hh.close connection

theorem step_address (h : SlotHistory) (op : SlotOp) :
  (h.step op).table.address = h.table.address
  := by
  have hopens (hop : op.Opens) : (op.run h.table).2.address = h.table.address := by
    obtain ⟨sin, hr⟩ := SlotOp.run_opening hop h.table
    generalize op.run h.table = r at hr
    cases hr <;> rfl
  cases op with
  | create IP port => exact hopens trivial
  | accept peer => exact hopens trivial
  | close connection =>
    simp only [SlotHistory.step, SlotOp.run, SlotTable.netConnectionClose]
    split <;> rfl

/-- What a run keeps. -/
theorem run_owned (address : ℕ) (outcome : ℕ → Outcome) (ops : List SlotOp) :
  (run address outcome ops).Owned ∧ (run address outcome ops).table.address = address
  := by
  have hfold (ops : List SlotOp) : ∀ h : SlotHistory, h.Owned → h.table.address = address →
      (ops.foldl step h).Owned ∧ (ops.foldl step h).table.address = address := by
    induction ops with
    | nil =>
      intro h hh ha
      exact ⟨hh, ha⟩
    | cons op ops ih =>
      intro h hh ha
      apply ih
      · exact hh.step op
      · rw [step_address, ha]
  exact hfold ops _ (owned_empty address outcome) rfl

end SlotHistory

/-! ### Ownership -/

theorem TableSlot.InOrder.owner {address : ℕ} {i : Fin maxOpenConnections} {c : TableSlot}
    (hc : c.InOrder address i) (hbev : c.bev.isSome = true) :
  ∃ arg : NetConnCbArg, c.netCbArg = some arg ∧ c.bev.bind SlotBev.ctx = some arg
    ∧ arg.conn = i.val ∧ arg.srv = address ∧ arg.Reaches address i
  := by
  cases hc with
  | free sin => cases hbev
  | taken serial sin => exact ⟨_, rfl, rfl, rfl, rfl, NetConnCbArg.reaches address i⟩

theorem SlotTable.Opening.failed {t : SlotTable} {sin : UInt32 × UInt16 → UInt32 × UInt16}
    {r : Option (Fin maxOpenConnections) × SlotTable} (hr : SlotTable.Opening t sin r)
    (hnone : r.1 = none) :
  r.2.occupied = t.occupied
    ∧ ((t.outcome t.calls).bevNew = true → (t.outcome t.calls).malloc = true →
      t.occupied = Set.univ)
  := by
  cases hr with
  | full h =>
    refine ⟨rfl, ?_⟩
    intro _ _
    exact SlotTable.occupied_of_netEmptyConnectionSlot h
  | noBev h =>
    refine ⟨rfl, ?_⟩
    intro hbev
    rw [h] at hbev
    cases hbev
  | noMemory hi h =>
    refine ⟨SlotTable.occupied_lost hi, ?_⟩
    intro _ hmalloc
    rw [h] at hmalloc
    cases hmalloc
  | handed hi => cases hnone

theorem SlotTable.Opening.opened {t : SlotTable} {sin : UInt32 × UInt16 → UInt32 × UInt16}
    {r : Option (Fin maxOpenConnections) × SlotTable} (hr : SlotTable.Opening t sin r)
    {i : Fin maxOpenConnections} (hi : r.1 = some i) :
  i ∉ t.occupied ∧ r.2.occupied = insert i t.occupied
  := by
  cases hr with
  | handed hj =>
    cases hi
    refine ⟨?_, SlotTable.occupied_handed t i sin⟩
    simp [SlotTable.occupied, SlotTable.netEmptyConnectionSlot_bev hj]
  | _ => cases hi

/-- After any sequence of creating, accepting and closing connections, no two open
connections share a slot, and an occupied slot has a `net_cb_arg` that names it and its
server, so that its events reach its own callbacks. A connection that is not made leaves the
same slots occupied, and when neither the `bufferevent` nor the memory was refused, all of
them; one that is made takes a slot that was free, and no other. Closing a number frees the
slot with the number alone, and closing it again does nothing. -/
theorem connections_own_slots (address : ℕ) (outcome : ℕ → Outcome) (ops : List SlotOp) :
  let h := SlotHistory.run address outcome ops
  (h.opened.Pairwise fun c d => c.2 ≠ d.2)
    ∧ (∀ s i, (s, i) ∈ h.opened ↔ h.table.serialIn i = some s)
    ∧ (∀ i ∈ h.table.occupied, ∃ arg : NetConnCbArg, (h.table.slots i).netCbArg = some arg
        ∧ (h.table.slots i).bev.bind SlotBev.ctx = some arg
        ∧ arg.conn = i.val ∧ arg.srv = address ∧ arg.Reaches address i)
    ∧ (∀ op : SlotOp, op.Opens → (op.run h.table).1 = none →
        (op.run h.table).2.occupied = h.table.occupied
          ∧ ((h.table.outcome h.table.calls).bevNew = true →
            (h.table.outcome h.table.calls).malloc = true → h.table.occupied = Set.univ))
    ∧ (∀ op : SlotOp, ∀ i, op.Opens → (op.run h.table).1 = some i →
        i ∉ h.table.occupied ∧ (op.run h.table).2.occupied = insert i h.table.occupied)
    ∧ ∀ connection : ℤ,
        let t := h.table.netConnectionClose connection
        t.occupied = h.table.occupied \ { i | (i.val : ℤ) = connection }
          ∧ (∀ j, (j.val : ℤ) ≠ connection → t.slots j = h.table.slots j)
          ∧ t.netConnectionClose connection = t
  := by
  intro h
  obtain ⟨howned, haddress⟩ := SlotHistory.run_owned address outcome ops
  refine ⟨howned.apart, howned.opened, ?_, ?_, ?_, ?_⟩
  · intro i hi
    have horder := howned.slots i
    rw [haddress] at horder
    exact horder.owner hi
  · intro op hop hnone
    obtain ⟨sin, hr⟩ := SlotOp.run_opening hop h.table
    exact hr.failed hnone
  · intro op i hop hi
    obtain ⟨sin, hr⟩ := SlotOp.run_opening hop h.table
    exact hr.opened hi
  · intro connection
    refine ⟨h.table.occupied_netConnectionClose connection, ?_,
      h.table.netConnectionClose_idem connection⟩
    intro j hj
    exact h.table.netConnectionClose_slots_of_ne hj

/-! ### The table of a server -/

section

variable {D E A : Type}

/-- The server has the slots of the table: the same are occupied, with `bufferevents` of the
same serials, and the number in a `net_cb_arg` is the same. -/
structure Tracks (t : SlotTable) (srv : NetServer D E A) : Prop where
  bev : ∀ i, (srv.connections i).bev.map Bufferevent.serial = t.serialIn i
  sin : ∀ i, (srv.connections i).sin = (t.slots i).sin
  netCbArg : ∀ i, (srv.connections i).netCbArg = (t.slots i).netCbArg.map NetConnCbArg.conn
  made : srv.nextSerial = t.made
  outcome : srv.outcome = t.outcome
  calls : srv.calls = t.calls

/-- What an operation does to a server, whose accepted connections are set up with the given
callbacks. -/
def SlotOp.runServer (readCb : D) (eventCb : E) (cbArg : A) (srv : NetServer D E A) :
    SlotOp → NetServer D E A
  | .create IP port => (netConnectionCreate srv IP port).2
  | .accept peer => listenEvtCb srv peer (incomingConnection readCb eventCb cbArg)
  | .close connection => netConnectionClose srv connection

variable {t : SlotTable} {srv : NetServer D E A}

namespace Tracks

theorem empty (address : ℕ) (outcome : ℕ → Outcome) :
  Tracks (SlotTable.empty address outcome) (NetServer.empty outcome : NetServer D E A)
  := ⟨fun _ => rfl, fun _ => rfl, fun _ => rfl, rfl, rfl, rfl⟩

theorem netEmptyConnectionSlot_eq (ht : Tracks t srv) :
  netEmptyConnectionSlot srv = t.netEmptyConnectionSlot
  := by
  have hnone (i : Fin maxOpenConnections) :
      (srv.connections i).bev.isNone = (t.slots i).bev.isNone := by
    have h := congrArg Option.isNone (ht.bev i)
    simpa [SlotTable.serialIn] using h
  rw [netEmptyConnectionSlot_eq_find, SlotTable.netEmptyConnectionSlot_eq_find]
  exact congrArg Fin.find? (funext hnone)

/-- The slot `i` is changed on both sides, to the same effect. -/
theorem update (ht : Tracks t srv) (i : Fin maxOpenConnections) (c : NetConnection D E A)
    (c' : TableSlot) {m n k l : ℕ} (hmade : m = n) (hcalls : k = l)
    (hbev : c.bev.map Bufferevent.serial = c'.bev.map SlotBev.serial)
    (hsin : c.sin = c'.sin) (harg : c.netCbArg = c'.netCbArg.map NetConnCbArg.conn) :
  Tracks
    { t with slots := Function.update t.slots i c', made := n, calls := l }
    { srv with connections := Function.update srv.connections i c, nextSerial := m, calls := k }
  := by
  refine ⟨?_, ?_, ?_, hmade, ht.outcome, hcalls⟩
  all_goals
    intro j
    by_cases hj : j = i
    · subst hj
      simp [SlotTable.serialIn, hbev, hsin, harg]
  · simpa [SlotTable.serialIn, hj] using ht.bev j
  · simpa [hj] using ht.sin j
  · simpa [hj] using ht.netCbArg j

theorem opening (ht : Tracks t srv) {i : Fin maxOpenConnections} (c : NetConnection D E A)
    (sin : UInt32 × UInt16 → UInt32 × UInt16) (hbev : c.bev.map Bufferevent.serial = some t.made)
    (hsin : c.sin = sin (t.slots i).sin) (harg : c.netCbArg = some (i.val : ℤ)) :
  Tracks (t.handed i sin) { srv with
    connections := Function.update srv.connections i c
    nextSerial := srv.nextSerial + 1
    calls := srv.calls + 1 }
  := ht.update i c _ (congrArg (· + 1) ht.made) (congrArg (· + 1) ht.calls) hbev hsin harg

theorem losing (ht : Tracks t srv) (i : Fin maxOpenConnections) :
  Tracks (t.lost i) { srv with
    connections := Function.update srv.connections i
      { srv.connections i with bev := none, sin := (0, 0), netCbArg := none }
    nextSerial := srv.nextSerial + 1
    calls := srv.calls + 1 }
  := ht.update i _ _ (congrArg (· + 1) ht.made) (congrArg (· + 1) ht.calls) rfl rfl rfl

theorem refusing (ht : Tracks t srv) :
  Tracks { t with calls := t.calls + 1 } { srv with calls := srv.calls + 1 }
  := ⟨ht.bev, ht.sin, ht.netCbArg, ht.made, ht.outcome, congrArg (· + 1) ht.calls⟩

theorem outcome_eq (ht : Tracks t srv) :
  srv.outcome srv.calls = t.outcome t.calls
  := by
  rw [ht.outcome, ht.calls]

theorem create (ht : Tracks t srv) (IP : UInt32) (port : UInt16) :
  (netConnectionCreate srv IP port).1 = (t.netConnectionCreate IP port).1
    ∧ Tracks (t.netConnectionCreate IP port).2 (netConnectionCreate srv IP port).2
  := by
  have hslot := ht.netEmptyConnectionSlot_eq
  rw [SlotTable.netConnectionCreate]
  cases hi : t.netEmptyConnectionSlot with
  | none =>
    rw [hi] at hslot
    simpa only [netConnectionCreate, hslot, SlotTable.openSlot, hi, true_and] using ht
  | some i =>
    rw [hi] at hslot
    rw [netConnectionCreate_of_slot hslot, SlotTable.openSlot_of_slot hi, ht.outcome_eq]
    split_ifs with hbev hmalloc
    · refine ⟨rfl, ht.opening _ (fun _ => (IP, port)) ?_ rfl rfl⟩
      simp [created, NetServer.freshBev, ht.made]
    · exact ⟨rfl, ht.losing i⟩
    · exact ⟨rfl, ht.refusing⟩

theorem accept (ht : Tracks t srv) (peer : UInt32) (readCb : D) (eventCb : E) (cbArg : A) :
  Tracks t.listenEvtCb.2 (listenEvtCb srv peer (incomingConnection readCb eventCb cbArg))
  := by
  have hslot := ht.netEmptyConnectionSlot_eq
  rw [SlotTable.listenEvtCb]
  cases hi : t.netEmptyConnectionSlot with
  | none =>
    rw [hi] at hslot
    simpa only [listenEvtCb, hslot, SlotTable.openSlot, hi] using ht
  | some i =>
    rw [hi] at hslot
    rw [listenEvtCb_of_slot hslot, SlotTable.openSlot_of_slot hi, ht.outcome_eq]
    split_ifs with hbev hmalloc
    · refine ht.opening _ _ ?_ (ht.sin i) rfl
      simp [accepted, NetServer.freshBev, ht.made]
    · exact ht.losing i
    · exact ht.refusing

theorem close (ht : Tracks t srv) (connection : ℤ) :
  Tracks (t.netConnectionClose connection) (netConnectionClose srv connection)
  := by
  rw [SlotTable.netConnectionClose, netConnectionClose]
  cases hi : netSlot connection with
  | none => exact ht
  | some i => exact ht.update i _ _ ht.made ht.calls rfl rfl rfl

end Tracks

/-- Over any operations the table is followed by the server: what holds of its slots holds of
the connections of the server. -/
theorem tracks_run (address : ℕ) (outcome : ℕ → Outcome) (readCb : D) (eventCb : E) (cbArg : A)
    (ops : List SlotOp) :
  Tracks (SlotHistory.run address outcome ops).table
    (ops.foldl (SlotOp.runServer readCb eventCb cbArg) (NetServer.empty outcome))
  := by
  have hfold (ops : List SlotOp) : ∀ (h : SlotHistory) (srv : NetServer D E A),
      Tracks h.table srv →
      Tracks (ops.foldl SlotHistory.step h).table
        (ops.foldl (SlotOp.runServer readCb eventCb cbArg) srv) := by
    induction ops with
    | nil =>
      intro h srv ht
      exact ht
    | cons op ops ih =>
      intro h srv ht
      apply ih
      cases op with
      | create IP port => exact (ht.create IP port).2
      | accept peer => exact ht.accept peer readCb eventCb cbArg
      | close connection => exact ht.close connection
  exact hfold ops _ _ (Tracks.empty address outcome)

end
