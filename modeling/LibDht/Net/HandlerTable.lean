import LibDht.Net.Wrapper
import Mathlib.Data.List.Nodup

/-!
# The handler table

A registration takes the next number, writes the callback and its argument into the table,
and returns the number; a setter changes the entry that a number names. A full table moves
to a block that is twice as large. The entry is written one place behind the number that is
returned, the setters accept that place although no registration has returned it, and the
move copies the entries of the new block to the old one.

A number names what was registered under it exactly as long as every registration finds the
entry in its place before it is written, the table is not filled, and no setter is called
with the number that is to be returned next. An invariant of all runs is that the numbers
returned are those below the number of handlers.
-/

/-- An entry of the handler table: `struct netw_handler`. Callbacks and their arguments are
known by numbers. -/
structure NetwHandler where
  incomingConnectionCb : ℕ
  incomingCbArg : ℕ
  deriving DecidableEq, Repr

/-- The use of an index of a block of handlers, and the number of entries that the block
has. -/
structure NetwAccess where
  index : ℤ
  capacity : ℤ
  deriving DecidableEq, Repr

/-- `INIT_MAX_HANDLERS`. -/
abbrev initMaxHandlers : ℤ := 8

/-- The variables of `net_wrapper.c`. The block `handlers`, which may be the null pointer, has
what was in memory where nobody has written, and goes on behind its end. What `malloc` gives
at each call is in `malloc`. -/
structure NetwTable extends Netw where
  maxHandlers : ℤ
  handlers : Option (ℕ → NetwHandler)
  malloc : ℕ → Option (ℕ → NetwHandler)
  mallocs : ℕ
  accesses : List NetwAccess
  crashed : Bool

namespace NetwTable

def lock (t : NetwTable) : NetwTable :=
  { t with toNetw := t.toNetw.lock }

def unlock (t : NetwTable) : NetwTable :=
  { t with toNetw := t.toNetw.unlock }

/-- `netw_num_handlers++`. -/
def count (t : NetwTable) : NetwTable :=
  { t with numHandlers := t.numHandlers + 1 }

/-- The entry `handlers[index]`. -/
def entry (t : NetwTable) (index : ℤ) : Option NetwHandler :=
  t.handlers.map fun handlers => handlers index.toNat

/-- A change to the entry `handlers[index]`. -/
def modify (t : NetwTable) (index : ℤ) (f : NetwHandler → NetwHandler) : NetwTable :=
  match t.handlers with
  | none => { t with crashed := true }
  | some handlers =>
    { t with
      handlers := some (Function.update handlers index.toNat (f (handlers index.toNat)))
      accesses := t.accesses ++ [{ index := index, capacity := t.maxHandlers }] }

/-- The move to a block that is twice as large. Entries are copied from it to the old block,
which is then freed. There is no going on after the number of entries has overflowed. -/
def grow (t : NetwTable) : NetwTable :=
  if t.maxHandlers * 2 > intMax then { t with crashed := true }
  else
    match t.malloc t.mallocs, t.handlers with
    | some tmpHand, some _ =>
      { t with
        maxHandlers := t.maxHandlers * 2
        handlers := some tmpHand
        mallocs := t.mallocs + 1
        accesses := t.accesses ++ (List.range t.maxHandlers.toNat).flatMap fun (i : ℕ) =>
          [{ index := i, capacity := t.maxHandlers * 2 },
            { index := i, capacity := t.maxHandlers }] }
    | _, _ => { t with crashed := true }

@[simp] theorem lock_numHandlers (t : NetwTable) : t.lock.numHandlers = t.numHandlers := rfl
@[simp] theorem lock_maxHandlers (t : NetwTable) : t.lock.maxHandlers = t.maxHandlers := rfl
@[simp] theorem lock_handlers (t : NetwTable) : t.lock.handlers = t.handlers := rfl
@[simp] theorem lock_accesses (t : NetwTable) : t.lock.accesses = t.accesses := rfl
@[simp] theorem lock_crashed (t : NetwTable) : t.lock.crashed = t.crashed := rfl
@[simp] theorem unlock_numHandlers (t : NetwTable) : t.unlock.numHandlers = t.numHandlers := rfl
@[simp] theorem unlock_maxHandlers (t : NetwTable) : t.unlock.maxHandlers = t.maxHandlers := rfl
@[simp] theorem unlock_handlers (t : NetwTable) : t.unlock.handlers = t.handlers := rfl
@[simp] theorem unlock_accesses (t : NetwTable) : t.unlock.accesses = t.accesses := rfl
@[simp] theorem unlock_crashed (t : NetwTable) : t.unlock.crashed = t.crashed := rfl
@[simp] theorem unlock_handlersLock (t : NetwTable) : t.unlock.handlersLock = false := rfl

@[simp] theorem count_numHandlers (t : NetwTable) : t.count.numHandlers = t.numHandlers + 1 := rfl
@[simp] theorem count_maxHandlers (t : NetwTable) : t.count.maxHandlers = t.maxHandlers := rfl
@[simp] theorem count_crashed (t : NetwTable) : t.count.crashed = t.crashed := rfl

@[simp]
theorem modify_numHandlers (t : NetwTable) (index : ℤ) (f : NetwHandler → NetwHandler) :
  (t.modify index f).numHandlers = t.numHandlers
  := by
  unfold modify
  split <;> rfl

@[simp]
theorem modify_maxHandlers (t : NetwTable) (index : ℤ) (f : NetwHandler → NetwHandler) :
  (t.modify index f).maxHandlers = t.maxHandlers
  := by
  unfold modify
  split <;> rfl

/-- A change to an entry does not start a process again that has crashed. -/
theorem crashed_of_modify {t : NetwTable} {index : ℤ} {f : NetwHandler → NetwHandler}
    (h : (t.modify index f).crashed = false) :
  t.crashed = false
  := by
  unfold modify at h
  split at h
  · cases h
  · exact h

@[simp]
theorem grow_numHandlers (t : NetwTable) :
  t.grow.numHandlers = t.numHandlers
  := by
  unfold grow
  split
  · rfl
  · split <;> rfl

theorem modify_of_handlers {t : NetwTable} {handlers : ℕ → NetwHandler}
    (h : t.handlers = some handlers) (index : ℤ) (f : NetwHandler → NetwHandler) :
  t.modify index f = { t with
    handlers := some (Function.update handlers index.toNat (f (handlers index.toNat)))
    accesses := t.accesses ++ [{ index := index, capacity := t.maxHandlers }] }
  := by
  rw [modify, h]

/-- The entries but the one that is written stay. -/
theorem entry_of_update {t t' : NetwTable} {handlers : ℕ → NetwHandler} {written : ℕ}
    {h : NetwHandler} (hhandlers : t.handlers = some handlers)
    (hwritten : t'.handlers = some (Function.update handlers written h)) {index : ℤ}
    (hne : index.toNat ≠ written) :
  t'.entry index = t.entry index
  := by
  rw [entry, entry, hhandlers, hwritten, Option.map_some, Option.map_some,
    Function.update_of_ne hne]

end NetwTable

/-- Initialise the wrapper. -/
def netwInit (malloc : ℕ → Option (ℕ → NetwHandler)) : ℤ × NetwTable :=
  let handlers := malloc 0
  (if handlers.isSome then 0 else -1,
    { numHandlers := 0
      handlersLock := false
      log := []
      maxHandlers := initMaxHandlers
      handlers := handlers
      malloc := malloc
      mallocs := 1
      accesses := []
      crashed := false })

/-- A setter: the entry that the number names is changed. -/
def netwHandlerSet (t : NetwTable) (handlerId : ℤ) (f : NetwHandler → NetwHandler) :
    ℤ × NetwTable :=
  let t := t.lock
  if t.Refuses handlerId then (-1, t.unlock)
  else (0, (t.modify handlerId f).unlock)

def netwHandlerSetCb (t : NetwTable) (handlerId : ℤ) (incomingConnectionCb : ℕ) :
    ℤ × NetwTable :=
  netwHandlerSet t handlerId fun h => { h with incomingConnectionCb := incomingConnectionCb }

def netwHandlerSetCbArg (t : NetwTable) (handlerId : ℤ) (incomingCbArg : ℕ) : ℤ × NetwTable :=
  netwHandlerSet t handlerId fun h => { h with incomingCbArg := incomingCbArg }

/-- Register a handler. The entry is the one behind the number that is returned. -/
def netwRegisterHandler (t : NetwTable) (incomingConnectionCb incomingCbArg : ℕ) :
    ℤ × NetwTable :=
  let t := t.lock
  let t := if t.numHandlers = t.maxHandlers then t.grow else t
  let hId := t.numHandlers
  let t := t.count
  let t := t.modify t.numHandlers fun _ =>
    { incomingConnectionCb := incomingConnectionCb, incomingCbArg := incomingCbArg }
  (hId, t.unlock)

/-! ### What one call does -/

theorem netwHandlerSet_of_refuses {t : NetwTable} {handlerId : ℤ} (h : t.Refuses handlerId)
    (f : NetwHandler → NetwHandler) :
  netwHandlerSet t handlerId f = (-1, t.lock.unlock)
  := if_pos h

/-- A setter that is not refused changes the entry with the number. -/
theorem netwHandlerSet_of_not_refuses {t : NetwTable} {handlerId : ℤ} {handlers : ℕ → NetwHandler}
    (hhandlers : t.handlers = some handlers) (h : ¬ t.Refuses handlerId)
    (f : NetwHandler → NetwHandler) :
  netwHandlerSet t handlerId f = (0, ({ t.lock with
    handlers := some (Function.update handlers handlerId.toNat (f (handlers handlerId.toNat)))
    accesses := t.accesses ++ [{ index := handlerId, capacity := t.maxHandlers }] } :
      NetwTable).unlock)
  := by
  have hlock : ¬ t.lock.Refuses handlerId := h
  rw [netwHandlerSet]
  dsimp only
  rw [if_neg hlock, NetwTable.modify_of_handlers (t := t.lock) hhandlers]
  rfl

/-- A registration in a table that is not full writes the entry behind its number. -/
theorem netwRegisterHandler_of_room {t : NetwTable} {handlers : ℕ → NetwHandler}
    (hhandlers : t.handlers = some handlers) (hroom : t.numHandlers ≠ t.maxHandlers)
    (incomingConnectionCb incomingCbArg : ℕ) :
  netwRegisterHandler t incomingConnectionCb incomingCbArg = (t.numHandlers, ({ t.lock.count with
    handlers := some (Function.update handlers (t.numHandlers + 1).toNat
      { incomingConnectionCb := incomingConnectionCb, incomingCbArg := incomingCbArg })
    accesses := t.accesses ++ [{ index := t.numHandlers + 1, capacity := t.maxHandlers }] } :
      NetwTable).unlock)
  := by
  have hlock : ¬ t.lock.numHandlers = t.lock.maxHandlers := hroom
  rw [netwRegisterHandler]
  dsimp only
  rw [if_neg hlock, NetwTable.modify_of_handlers (t := t.lock.count) hhandlers]
  rfl

/-- A registration in a full table forgets every entry: up to its number, the entries are what
was in memory. -/
theorem netwRegisterHandler_of_full {t : NetwTable} {handlers tmpHand : ℕ → NetwHandler}
    (hhandlers : t.handlers = some handlers) (hfull : t.numHandlers = t.maxHandlers)
    (hmax : t.maxHandlers * 2 ≤ intMax)
    (hmalloc : t.malloc t.mallocs = some tmpHand) (incomingConnectionCb incomingCbArg : ℕ)
    {index : ℤ} (hnonneg : 0 ≤ index) (hle : index ≤ t.numHandlers) :
  (netwRegisterHandler t incomingConnectionCb incomingCbArg).2.entry index
    = some (tmpHand index.toNat)
  := by
  have hlock : t.lock.numHandlers = t.lock.maxHandlers := hfull
  have hgrow : t.lock.grow.count.handlers = some tmpHand := by
    have hmalloc' : t.lock.malloc t.lock.mallocs = some tmpHand := hmalloc
    have hhandlers' : t.lock.handlers = some handlers := hhandlers
    have hmax' : ¬ t.lock.maxHandlers * 2 > intMax := not_lt.mpr hmax
    rw [NetwTable.count, NetwTable.grow, if_neg hmax', hmalloc', hhandlers']
  have hne : index.toNat ≠ (t.numHandlers + 1).toNat := by omega
  rw [netwRegisterHandler]
  dsimp only
  rw [if_pos hlock, NetwTable.modify_of_handlers hgrow]
  simp [NetwTable.entry, Function.update_of_ne hne]

/-! ### Runs -/

/-- A call of the wrapper. -/
inductive NetwOp where
  | registerHandler (incomingConnectionCb incomingCbArg : ℕ)
  | handlerSetCb (handlerId : ℤ) (incomingConnectionCb : ℕ)
  | handlerSetCbArg (handlerId : ℤ) (incomingCbArg : ℕ)
  deriving DecidableEq, Repr

/-- The variables of the wrapper after a run, the numbers that registrations have returned, in
order, and what was last registered or set for each. -/
structure NetwHistory where
  table : NetwTable
  returned : List ℤ
  last : ℤ → Option NetwHandler

namespace NetwHistory

/-- The wrapper after `netw_init`. -/
def start (malloc : ℕ → Option (ℕ → NetwHandler)) : NetwHistory where
  table := (netwInit malloc).2
  returned := []
  last := fun _ => none

/-- A setter has left the table `table`. -/
def set (s : NetwHistory) (handlerId : ℤ) (f : NetwHandler → NetwHandler) (table : NetwTable) :
    NetwHistory where
  table := table
  returned := s.returned
  last := Function.update s.last handlerId ((s.last handlerId).map f)

/-- One call. -/
def call (s : NetwHistory) : NetwOp → NetwHistory
  | .registerHandler cb arg =>
    let (hId, table) := netwRegisterHandler s.table cb arg
    { table := table
      returned := s.returned ++ [hId]
      last := Function.update s.last hId
        (some { incomingConnectionCb := cb, incomingCbArg := arg }) }
  | .handlerSetCb handlerId cb =>
    s.set handlerId (fun h => { h with incomingConnectionCb := cb })
      (netwHandlerSetCb s.table handlerId cb).2
  | .handlerSetCbArg handlerId arg =>
    s.set handlerId (fun h => { h with incomingCbArg := arg })
      (netwHandlerSetCbArg s.table handlerId arg).2

/-- One call, unless the process has crashed. -/
def step (s : NetwHistory) (op : NetwOp) : NetwHistory :=
  if s.table.crashed then s else s.call op

/-- A run. -/
def run (s : NetwHistory) (ops : List NetwOp) : NetwHistory :=
  ops.foldl step s

/-- The table holds what was registered and set, no number was returned twice, and every index
was in its block. -/
structure Holds (s : NetwHistory) : Prop where
  distinct : s.returned.Nodup
  entries : ∀ {hId h}, s.last hId = some h → s.table.entry hId = some h
  bounds : ∀ a ∈ s.table.accesses, 0 ≤ a.index ∧ a.index < a.capacity

/-- The result of a setter is failure, and the table is as it was. -/
def Unchanged (t : NetwTable) (r : ℤ × NetwTable) : Prop :=
  r.1 = -1 ∧ r.2.handlers = t.handlers ∧ r.2.numHandlers = t.numHandlers
    ∧ r.2.maxHandlers = t.maxHandlers

/-- A setter on a number that was never returned changes nothing. -/
def RefusesUnknown (s : NetwHistory) : NetwOp → Prop
  | .registerHandler _ _ => True
  | .handlerSetCb handlerId cb =>
    handlerId ∉ s.returned → Unchanged s.table (netwHandlerSetCb s.table handlerId cb)
  | .handlerSetCbArg handlerId arg =>
    handlerId ∉ s.returned → Unchanged s.table (netwHandlerSetCbArg s.table handlerId arg)

/-- The table is a map of the numbers returned, at every point of a run. -/
def IsMap : NetwHistory → List NetwOp → Prop
  | s, [] => s.Holds
  | s, op :: ops => s.Holds ∧ s.RefusesUnknown op ∧ (s.step op).IsMap ops

/-- A registration does not fill the table, and its entry is there before it is written; a
setter is not called with the number that is returned next. -/
def Fits (s : NetwHistory) : NetwOp → Prop
  | .registerHandler cb arg => s.table.numHandlers + 1 < s.table.maxHandlers
    ∧ s.table.entry s.table.numHandlers
      = some { incomingConnectionCb := cb, incomingCbArg := arg }
  | .handlerSetCb handlerId _ => handlerId ≠ s.table.numHandlers
  | .handlerSetCbArg handlerId _ => handlerId ≠ s.table.numHandlers

instance (s : NetwHistory) (op : NetwOp) : Decidable (s.Fits op) :=
  match op with
  | .registerHandler _ _ => inferInstanceAs (Decidable (_ ∧ _))
  | .handlerSetCb _ _ => inferInstanceAs (Decidable (_ ≠ _))
  | .handlerSetCbArg _ _ => inferInstanceAs (Decidable (_ ≠ _))

/-- Every call of a run fits. -/
def AllFit : NetwHistory → List NetwOp → Prop
  | _, [] => True
  | s, op :: ops => s.Fits op ∧ (s.step op).AllFit ops

/-! ### The numbers -/

/-- The numbers returned are those below the number of handlers, each once, and they are those
that an entry was registered for. -/
structure Counted (s : NetwHistory) : Prop where
  nonneg : 0 ≤ s.table.numHandlers
  returned : ∀ hId, hId ∈ s.returned ↔ 0 ≤ hId ∧ hId < s.table.numHandlers
  distinct : s.returned.Nodup
  last : ∀ hId, (s.last hId).isSome = true ↔ hId ∈ s.returned

theorem counted_start (malloc : ℕ → Option (ℕ → NetwHandler)) :
  (start malloc).Counted
  := by
  constructor
  · exact le_refl 0
  · intro hId
    simp [start, netwInit]
  · exact List.nodup_nil
  · intro hId
    simp [start]

variable {s : NetwHistory}

theorem Counted.set (h : s.Counted) (handlerId : ℤ) (f : NetwHandler → NetwHandler)
    {table : NetwTable} (htable : table.numHandlers = s.table.numHandlers) :
  (s.set handlerId f table).Counted
  := by
  constructor
  · exact htable ▸ h.nonneg
  · intro hId
    rw [NetwHistory.set, htable]
    exact h.returned hId
  · exact h.distinct
  · intro hId
    by_cases heq : hId = handlerId
    · subst heq
      simpa [NetwHistory.set] using h.last hId
    · simpa [NetwHistory.set, Function.update_of_ne heq] using h.last hId

theorem netwHandlerSet_numHandlers (t : NetwTable) (handlerId : ℤ)
    (f : NetwHandler → NetwHandler) :
  (netwHandlerSet t handlerId f).2.numHandlers = t.numHandlers
  := by
  unfold netwHandlerSet
  dsimp only
  split_ifs <;> simp

theorem netwRegisterHandler_fst (t : NetwTable) (cb arg : ℕ) :
  (netwRegisterHandler t cb arg).1 = t.numHandlers
  := by
  unfold netwRegisterHandler
  dsimp only
  split_ifs <;> simp

theorem netwRegisterHandler_numHandlers (t : NetwTable) (cb arg : ℕ) :
  (netwRegisterHandler t cb arg).2.numHandlers = t.numHandlers + 1
  := by
  unfold netwRegisterHandler
  dsimp only
  split_ifs <;> simp

/-- Whatever is called, the numbers returned are those below the number of handlers. -/
theorem Counted.call (h : s.Counted) (op : NetwOp) :
  (s.call op).Counted
  := by
  cases op with
  | registerHandler cb arg =>
    have hnonneg := h.nonneg
    have hnew : s.table.numHandlers ∉ s.returned := by
      rw [h.returned]
      omega
    constructor
    · simp only [NetwHistory.call, netwRegisterHandler_numHandlers]
      omega
    · intro hId
      simp only [NetwHistory.call, netwRegisterHandler_numHandlers, netwRegisterHandler_fst,
        List.mem_append, List.mem_singleton, h.returned]
      omega
    · simp only [NetwHistory.call, netwRegisterHandler_fst]
      exact h.distinct.append (List.nodup_singleton _) (by simpa using hnew)
    · intro hId
      simp only [NetwHistory.call, netwRegisterHandler_fst, List.mem_append, List.mem_singleton]
      by_cases heq : hId = s.table.numHandlers
      · simp [heq]
      · simpa [heq] using h.last hId
  | handlerSetCb handlerId cb =>
    exact h.set _ _ (netwHandlerSet_numHandlers _ _ _)
  | handlerSetCbArg handlerId arg =>
    exact h.set _ _ (netwHandlerSet_numHandlers _ _ _)

/-! ### One call of a run -/

/-- The table of a running process has room for another number. -/
structure Ready (s : NetwHistory) : Prop where
  running : s.table.crashed = false
  handlers : ∃ handlers, s.table.handlers = some handlers
  room : s.table.numHandlers < s.table.maxHandlers

theorem Counted.mem_of_last (h : s.Counted) {hId : ℤ} {handler : NetwHandler}
    (hlast : s.last hId = some handler) :
  0 ≤ hId ∧ hId < s.table.numHandlers
  := by
  rw [← h.returned, ← h.last, hlast]
  rfl

theorem Counted.last_eq_none (h : s.Counted) {hId : ℤ} (hnot : hId ∉ s.returned) :
  s.last hId = none
  := by
  rw [← h.last] at hnot
  simpa using hnot

/-- A setter that is refused keeps what holds, and the number it is called with was not
returned. -/
theorem set_refused (h : s.Holds) (hcount : s.Counted) {handlerId : ℤ}
    (hrefuses : s.table.Refuses handlerId) (f : NetwHandler → NetwHandler) :
  Unchanged s.table (netwHandlerSet s.table handlerId f)
    ∧ (s.set handlerId f (netwHandlerSet s.table handlerId f).2).Holds
  := by
  have hnot : handlerId ∉ s.returned := by
    rw [hcount.returned]
    rcases hrefuses with hneg | hlarge <;> omega
  rw [netwHandlerSet_of_refuses hrefuses]
  refine ⟨⟨rfl, rfl, rfl, rfl⟩, h.distinct, ?_, h.bounds⟩
  intro hId handler hlast
  apply h.entries
  have hkeep : Function.update s.last handlerId (Option.map f (s.last handlerId)) = s.last := by
    rw [hcount.last_eq_none hnot, Option.map_none, ← hcount.last_eq_none hnot,
      Function.update_eq_self]
  rwa [NetwHistory.set, hkeep] at hlast

/-- A setter that is called with a number that was returned changes its entry. -/
theorem set_returned (h : s.Holds) (hcount : s.Counted) (hready : s.Ready) {handlerId : ℤ}
    (hmem : handlerId ∈ s.returned) (f : NetwHandler → NetwHandler) :
  (s.set handlerId f (netwHandlerSet s.table handlerId f).2).Holds
  := by
  obtain ⟨handlers, hhandlers⟩ := hready.handlers
  obtain ⟨hnonneg, hlt⟩ := (hcount.returned handlerId).mp hmem
  have hroom := hready.room
  have haccepted : ¬ s.table.Refuses handlerId := by
    rintro (hneg | hlarge) <;> omega
  rw [netwHandlerSet_of_not_refuses hhandlers haccepted]
  constructor
  · exact h.distinct
  · intro hId handler hlast
    by_cases heq : hId = handlerId
    · subst heq
      obtain ⟨old, hold, rfl⟩ : ∃ old, s.last hId = some old ∧ f old = handler := by
        simpa [NetwHistory.set] using hlast
      have hentry := h.entries hold
      simp only [NetwTable.entry, hhandlers, Option.map_some, Option.some.injEq] at hentry
      simp [NetwHistory.set, NetwTable.entry, hentry]
    · have hold : s.last hId = some handler := by
        simpa [NetwHistory.set, Function.update_of_ne heq] using hlast
      have hbelow := hcount.mem_of_last hold
      have hne : hId.toNat ≠ handlerId.toNat := by omega
      exact (NetwTable.entry_of_update hhandlers rfl hne).trans (h.entries hold)
  · intro a ha
    rcases List.mem_append.mp ha with hold | hnew
    · exact h.bounds a hold
    · obtain rfl := List.mem_singleton.mp hnew
      exact ⟨hnonneg, lt_trans hlt hroom⟩

/-- A setter does what it should unless it is called with the number that is returned next. -/
theorem set_iff (h : s.Holds) (hcount : s.Counted) (hready : s.Ready) (handlerId : ℤ)
    (f : NetwHandler → NetwHandler) :
  (handlerId ∉ s.returned → Unchanged s.table (netwHandlerSet s.table handlerId f))
      ∧ (s.set handlerId f (netwHandlerSet s.table handlerId f).2).Holds
    ↔ handlerId ≠ s.table.numHandlers
  := by
  constructor
  · rintro ⟨hunknown, -⟩ rfl
    obtain ⟨handlers, hhandlers⟩ := hready.handlers
    have hnonneg := hcount.nonneg
    have haccepted : ¬ s.table.Refuses s.table.numHandlers := by
      rintro (hneg | hlarge) <;> omega
    have hnot : s.table.numHandlers ∉ s.returned := by
      rw [hcount.returned]
      omega
    obtain ⟨hrc, -⟩ := hunknown hnot
    rw [netwHandlerSet_of_not_refuses hhandlers haccepted] at hrc
    cases hrc
  · intro hne
    by_cases hmem : handlerId ∈ s.returned
    · exact ⟨fun hnot => absurd hmem hnot, set_returned h hcount hready hmem f⟩
    · have hrefuses : s.table.Refuses handlerId := by
        rw [hcount.returned] at hmem
        unfold Netw.Refuses
        omega
      obtain ⟨hunchanged, hholds⟩ := set_refused h hcount hrefuses f
      exact ⟨fun _ => hunchanged, hholds⟩

/-- A registration keeps what holds exactly when its entry was there before and the one behind
it is in the table. -/
theorem register_iff (h : s.Holds) (hcount : s.Counted) (hready : s.Ready) (cb arg : ℕ) :
  (s.call (.registerHandler cb arg)).Holds ↔ s.Fits (.registerHandler cb arg)
  := by
  obtain ⟨handlers, hhandlers⟩ := hready.handlers
  have hnonneg := hcount.nonneg
  have hroom := netwRegisterHandler_of_room hhandlers (ne_of_lt hready.room) cb arg
  have hnext : s.table.numHandlers.toNat ≠ (s.table.numHandlers + 1).toNat := by omega
  have hwritten : (s.call (.registerHandler cb arg)).table.handlers
      = some (Function.update handlers (s.table.numHandlers + 1).toNat
        { incomingConnectionCb := cb, incomingCbArg := arg }) := by
    rw [NetwHistory.call, hroom]
    rfl
  have hfits : s.Fits (.registerHandler cb arg)
      ↔ s.table.numHandlers + 1 < s.table.maxHandlers
        ∧ handlers s.table.numHandlers.toNat
          = { incomingConnectionCb := cb, incomingCbArg := arg } := by
    simp [Fits, NetwTable.entry, hhandlers]
  rw [hfits]
  constructor
  · intro hafter
    constructor
    · refine (hafter.bounds { index := s.table.numHandlers + 1, capacity := _ } ?_).2
      rw [NetwHistory.call, hroom]
      exact List.mem_append_right _ List.mem_cons_self
    · have hlast : (s.call (.registerHandler cb arg)).last s.table.numHandlers
          = some { incomingConnectionCb := cb, incomingCbArg := arg } := by
        simp [NetwHistory.call, hroom]
      have hentry := hafter.entries hlast
      rw [NetwTable.entry_of_update hhandlers hwritten hnext] at hentry
      simpa [NetwTable.entry, hhandlers] using hentry
  · rintro ⟨hlt, hthere⟩
    refine ⟨(hcount.call _).distinct, ?_, ?_⟩
    · intro hId handler hlast
      by_cases heq : hId = s.table.numHandlers
      · subst heq
        obtain rfl : _ = handler := by simpa [NetwHistory.call, hroom] using hlast
        rw [NetwTable.entry_of_update hhandlers hwritten hnext]
        simpa [NetwTable.entry, hhandlers] using hthere
      · have hold : s.last hId = some handler := by
          simpa [NetwHistory.call, hroom, Function.update_of_ne heq] using hlast
        have hbelow := hcount.mem_of_last hold
        have hne : hId.toNat ≠ (s.table.numHandlers + 1).toNat := by omega
        exact (NetwTable.entry_of_update hhandlers hwritten hne).trans (h.entries hold)
    · intro a ha
      rw [NetwHistory.call, hroom] at ha
      rcases List.mem_append.mp ha with hold | hnew
      · exact h.bounds a hold
      · obtain rfl := List.mem_singleton.mp hnew
        exact ⟨Int.le_add_one hnonneg, hlt⟩

/-- A call that fits does what it should, and no other one does. -/
theorem step_iff (h : s.Holds) (hcount : s.Counted) (hready : s.Ready) (op : NetwOp) :
  s.RefusesUnknown op ∧ (s.step op).Holds ↔ s.Fits op
  := by
  rw [step, hready.running, if_neg Bool.false_ne_true]
  cases op with
  | registerHandler cb arg =>
    exact (and_iff_right trivial).trans (register_iff h hcount hready cb arg)
  | handlerSetCb handlerId cb => exact set_iff h hcount hready handlerId _
  | handlerSetCbArg handlerId arg => exact set_iff h hcount hready handlerId _

theorem Ready.set (hready : s.Ready) (handlerId : ℤ) (f : NetwHandler → NetwHandler) :
  (s.set handlerId f (netwHandlerSet s.table handlerId f).2).Ready
  := by
  obtain ⟨handlers, hhandlers⟩ := hready.handlers
  by_cases hrefuses : s.table.Refuses handlerId
  · rw [netwHandlerSet_of_refuses hrefuses]
    exact ⟨hready.running, hready.handlers, hready.room⟩
  · rw [netwHandlerSet_of_not_refuses hhandlers hrefuses]
    exact ⟨hready.running, ⟨_, rfl⟩, hready.room⟩

/-- After a call that fits the table has room for another number. -/
theorem Ready.step (hready : s.Ready) {op : NetwOp} (hfits : s.Fits op) :
  (s.step op).Ready
  := by
  rw [NetwHistory.step, hready.running, if_neg Bool.false_ne_true]
  cases op with
  | registerHandler cb arg =>
    obtain ⟨handlers, hhandlers⟩ := hready.handlers
    rw [call, netwRegisterHandler_of_room hhandlers (ne_of_lt hready.room)]
    exact ⟨hready.running, ⟨_, rfl⟩, hfits.1⟩
  | handlerSetCb handlerId cb => exact hready.set handlerId _
  | handlerSetCbArg handlerId arg => exact hready.set handlerId _

theorem Counted.step (hcount : s.Counted) (op : NetwOp) :
  (s.step op).Counted
  := by
  rw [NetwHistory.step]
  split_ifs
  · exact hcount
  · exact hcount.call op

theorem isMap_iff_of_ready (h : s.Holds) (hcount : s.Counted) (hready : s.Ready)
    (ops : List NetwOp) :
  s.IsMap ops ↔ s.AllFit ops
  := by
  induction ops generalizing s with
  | nil => exact iff_of_true h trivial
  | cons op ops ih =>
    have hstep := step_iff h hcount hready op
    constructor
    · rintro ⟨-, hunknown, hrest⟩
      have hholds : (s.step op).Holds := by
        cases ops with
        | nil => exact hrest
        | cons op' ops => exact hrest.1
      have hfits := hstep.mp ⟨hunknown, hholds⟩
      exact ⟨hfits, (ih hholds (hcount.step op) (hready.step hfits)).mp hrest⟩
    · rintro ⟨hfits, hrest⟩
      obtain ⟨hunknown, hholds⟩ := hstep.mpr hfits
      exact ⟨h, hunknown, (ih hholds (hcount.step op) (hready.step hfits)).mpr hrest⟩

/-- A table that has just been made holds nothing. -/
theorem holds_start (malloc : ℕ → Option (ℕ → NetwHandler)) :
  (start malloc).Holds
  := by
  constructor
  · exact List.nodup_nil
  · intro hId h hlast
    cases hlast
  · intro a ha
    cases ha

theorem ready_start {malloc : ℕ → Option (ℕ → NetwHandler)} (h : (netwInit malloc).1 = 0) :
  (start malloc).Ready
  := by
  have hmalloc : (malloc 0).isSome = true := by
    by_contra hnone
    rw [netwInit] at h
    simp only [hnone] at h
    cases h
  have hroom : (0 : ℤ) < initMaxHandlers := by decide
  exact ⟨rfl, Option.isSome_iff_exists.mp hmalloc, hroom⟩

/-- In every run after `netw_init`, the handler table is a map of the numbers that were
returned exactly as long as every call fits. -/
theorem isMap_iff {malloc : ℕ → Option (ℕ → NetwHandler)} (h : (netwInit malloc).1 = 0)
    (ops : List NetwOp) :
  (start malloc).IsMap ops ↔ (start malloc).AllFit ops
  := isMap_iff_of_ready (holds_start malloc) (counted_start malloc) (ready_start h) ops

/-- Memory is zero, and never runs out. -/
def zeroed : ℕ → Option (ℕ → NetwHandler) :=
  fun _ => some fun _ => { incomingConnectionCb := 0, incomingCbArg := 0 }

/-- The table is a map while setters are called with numbers out of range only, and stays one
when a handler is registered that is there already, but not when another one is. -/
theorem isMap_iff_zeroed :
  (start zeroed).IsMap [.handlerSetCb 3 1, .handlerSetCbArg (-1) 1]
    ∧ (start zeroed).IsMap [.registerHandler 0 0, .handlerSetCb 5 1, .registerHandler 0 0]
    ∧ ¬ (start zeroed).IsMap [.registerHandler 1 1]
  := by
  have hinit : (netwInit zeroed).1 = 0 := rfl
  refine ⟨?_, ?_, ?_⟩
  · apply (isMap_iff hinit _).mpr
    exact ⟨by decide, by decide, trivial⟩
  · apply (isMap_iff hinit _).mpr
    exact ⟨by decide, by decide, by decide, trivial⟩
  · intro h
    obtain ⟨⟨-, hthere⟩, -⟩ := (isMap_iff hinit _).mp h
    revert hthere
    decide

/-- The first number does not name the first handler. -/
theorem number_names_no_handler :
  ¬ ∀ (malloc : ℕ → Option (ℕ → NetwHandler)) (ops : List NetwOp), (netwInit malloc).1 = 0 →
    (start malloc).IsMap ops
  := by
  intro h
  obtain ⟨-, -, hafter⟩ := h zeroed [.registerHandler 1 1] rfl
  have hlast : ((start zeroed).step (.registerHandler 1 1)).last 0
      = some { incomingConnectionCb := 1, incomingCbArg := 1 } := by decide
  have hentry := hafter.entries hlast
  revert hentry
  decide

end NetwHistory
