import LibDht.Net.HandlerTable
import LibDht.Wire.Grammar
import LibDht.Wire.Reply

/-!
# The dispatch of incoming connections

An incoming connection is handed to the handler whose number is in its first line. The line
is read at once when the connection is accepted, and a line that has not come yet is a null
pointer. A number that is refused unlocks the table again; for any other the table is locked
a second time, and never unlocked.

The dispatch does what it should exactly when a whole line is there and the number in it is
refused.
-/

/-- `strtol` in base 16: spaces, a sign, `0x`, and digits. A number that is no `long` is taken
to be the nearest one. -/
def strtol16 (l : List UInt8) : ℤ :=
  let l := l.dropWhile isSpace
  let negative := l.head? == some 45
  let l := if negative || l.head? == some 43 then l.tail else l
  let number :=
    match l with
    | 48 :: x :: d :: rest =>
      if (x == 120 || x == 88) && (hexValue d).isSome then d :: rest else l
    | _ => l
  let n : ℤ := hexPrefix 0 number
  if negative then max (-2 ^ 63) (-n) else min (2 ^ 63 - 1) n

/-- A `long` as an `int`. -/
def intOfLong (n : ℤ) : ℤ :=
  n.bmod (2 ^ 32)

/-- `BEV_EVENT_CONNECTED`. -/
abbrev bevEventConnected : Int16 := 0x80

/-- A call of a handler. -/
structure Invocation where
  handler : NetwHandler
  connection : ℤ
  type : Int16
  deriving DecidableEq, Repr

/-- How a call ends. -/
inductive Ended where
  | returned
  | crashed
  | deadlocked
  deriving DecidableEq, Repr

/-- What a call of `netw_incomming_cb` leaves, the handlers that it called, and how it
ended. -/
structure NetwDispatch (D E A : Type) where
  table : NetwTable
  srv : NetServer D E A
  invoked : List Invocation
  ended : Ended

section

variable {D E A : Type}

/-- Hand an incoming connection to its handler. Whether a thread may lock a mutex that it holds
is `relocks`; a thread that may not waits for itself. -/
def netwIncommingCb (relocks : Bool) (t : NetwTable) (srv : NetServer D E A) (connection : ℤ)
    (type : Int16) : NetwDispatch D E A :=
  match netConnectionGetBuffer srv connection with
  | (none, srv) => { table := t, srv := srv.crash, invoked := [], ended := .crashed }
  | (some (i, b), srv) =>
    match readln b.input with
    | none => { table := t, srv := srv.crash, invoked := [], ended := .crashed }
    | some token =>
      let srv := srv.modifyBev i fun b => { b with input := b.input.drop (token.length + 1) }
      let hId := intOfLong (strtol16 token)
      let t := t.lock
      if t.Refuses hId then
        { table := t.unlock, srv := srv, invoked := [], ended := .returned }
      else
        let held := t.handlersLock
        let t := t.lock
        if held && !relocks then
          { table := t, srv := srv, invoked := [], ended := .deadlocked }
        else
          match t.entry hId with
          | none => { table := t, srv := srv.crash, invoked := [], ended := .crashed }
          | some h =>
            { table := { t with
                accesses := t.accesses ++ [{ index := hId, capacity := t.maxHandlers }] }
              srv := srv
              invoked := [{ handler := h, connection := connection, type := type }]
              ended := .returned }

/-- A line is the hexadecimal numeral of a number. -/
def Names (line : List UInt8) (hId : ℤ) : Prop :=
  line ≠ [] ∧ (∀ d ∈ line, (hexValue d).isSome) ∧ (hexNumber line : ℤ) = hId

/-- A connection on which `input` has arrived is dispatched as it should be. -/
structure DispatchesRight (s : NetwHistory) (input : List UInt8) (connection : ℤ) (type : Int16)
    (d : NetwDispatch D E A) : Prop where
  returns : d.ended = .returned
  once : d.invoked.length ≤ 1
  addressed : ∀ hId h rest, s.last hId = some h → input = handlerLine hId ++ rest →
    d.invoked = [{ handler := h, connection := connection, type := type }]
  nobody : (∀ hId ∈ s.returned, ∀ line, readln input = some line → ¬ Names line hId) →
    d.invoked = []
  locks : ∃ uses, d.table.log = s.table.log ++ uses ∧ .lock true ∉ uses
  free : d.table.handlersLock = false

end

/-! ### Reading a number -/

/-- Without a minus sign, `strtol` reads what `strtoul` does. -/
theorem strtol16_eq_strtoul16 {l : List UInt8} (h : (l.dropWhile isSpace).head? ≠ some 45) :
  strtol16 l = min (2 ^ 63 - 1) (strtoul16 l : ℤ)
  := by
  have hsign : ((l.dropWhile isSpace).head? == some 45) = false := by simpa using h
  rw [strtol16, strtoul16, hsign]
  rfl

/-- `strtol` reads what `%X` prints. -/
theorem strtol16_hexNumeral {n : ℕ} (h : n < 2 ^ 63) :
  strtol16 (hexNumeral n) = n
  := by
  have hhead : ((hexNumeral n).dropWhile isSpace).head? ≠ some 45 := by
    intro hhead
    have hmem : 45 ∈ hexNumeral n :=
      (List.dropWhile_suffix isSpace).subset (List.mem_of_mem_head? (by simp [hhead]))
    have hdigit := isSome_of_mem_hexDigits _ hmem
    revert hdigit
    decide
  have hlt : n < 16 ^ (Nat.log 16 n + 1) := Nat.lt_pow_succ_log_self (by decide) n
  rw [strtol16_eq_strtoul16 hhead, hexNumeral, strtoul16_hexDigits hlt]
  omega

theorem intOfLong_of_le {n : ℤ} (hnonneg : 0 ≤ n) (hle : n ≤ intMax) :
  intOfLong n = n
  := by
  unfold intOfLong
  unfold intMax at hle
  apply Int.bmod_eq_of_le <;> norm_num <;> omega

/-- The first line of what a connection for a handler starts with is the number. -/
theorem readln_handlerLine (hId : ℤ) (rest : List UInt8) :
  readln (handlerLine hId ++ rest) = some (hexNumeral hId.toNat)
  := by
  have hdigits : ∀ b ∈ hexNumeral hId.toNat, b ≠ lineFeed := by
    rintro b hb rfl
    have hdigit := isSome_of_mem_hexDigits _ hb
    revert hdigit
    decide
  rw [readln, if_pos (by simp [handlerLine]), handlerLine, List.append_assoc,
    List.takeWhile_append_of_pos (by simpa using hdigits)]
  simp

/-! ### Tables of a run -/

/-- The table is not locked, and as long as the process runs there are no more handlers than
entries, and no more entries than an `int` can count. -/
structure NetwTable.Sized (t : NetwTable) : Prop where
  free : t.handlersLock = false
  size : t.crashed = false → 1 ≤ t.maxHandlers ∧ t.numHandlers ≤ t.maxHandlers
    ∧ t.maxHandlers ≤ intMax

namespace NetwTable

theorem sized_netwInit (malloc : ℕ → Option (ℕ → NetwHandler)) :
  (netwInit malloc).2.Sized
  := by
  have hsize : (1 : ℤ) ≤ initMaxHandlers ∧ (0 : ℤ) ≤ initMaxHandlers
      ∧ initMaxHandlers ≤ intMax := by decide
  exact ⟨rfl, fun _ => hsize⟩

/-- A move that succeeds doubles the number of entries, which is still an `int`. -/
theorem grow_size (t : NetwTable) :
  t.grow.crashed = false →
    t.grow.maxHandlers = t.maxHandlers * 2 ∧ t.maxHandlers * 2 ≤ intMax ∧ t.crashed = false
  := by
  unfold grow
  split_ifs with hmax
  · intro h
    cases h
  · split
    · intro h
      exact ⟨rfl, not_lt.mp hmax, h⟩
    · intro h
      cases h

theorem Sized.handlerSet {t : NetwTable} (h : t.Sized) (handlerId : ℤ)
    (f : NetwHandler → NetwHandler) :
  (netwHandlerSet t handlerId f).2.Sized
  := by
  unfold netwHandlerSet
  dsimp only
  split_ifs
  · exact ⟨rfl, h.size⟩
  · refine ⟨rfl, fun hrunning => ?_⟩
    have hsize := h.size (crashed_of_modify (t := t.lock) hrunning)
    simpa using hsize

theorem Sized.registerHandler {t : NetwTable} (h : t.Sized) (cb arg : ℕ) :
  (netwRegisterHandler t cb arg).2.Sized
  := by
  unfold netwRegisterHandler
  dsimp only
  split_ifs with hfull
  · refine ⟨rfl, fun hrunning => ?_⟩
    have hgrown := crashed_of_modify (t := t.lock.grow.count) hrunning
    obtain ⟨hdouble, hle, hbefore⟩ := grow_size t.lock hgrown
    obtain ⟨hpos, -, -⟩ := h.size hbefore
    simp only [lock_numHandlers, lock_maxHandlers] at hfull hdouble hle
    simp only [unlock_maxHandlers, unlock_numHandlers, modify_maxHandlers, modify_numHandlers,
      count_maxHandlers, count_numHandlers, grow_numHandlers, lock_numHandlers, hdouble]
    omega
  · refine ⟨rfl, fun hrunning => ?_⟩
    obtain ⟨hpos, hnum, hle⟩ := h.size (crashed_of_modify (t := t.lock.count) hrunning)
    simp only [lock_numHandlers, lock_maxHandlers] at hfull
    simp only [unlock_maxHandlers, unlock_numHandlers, modify_maxHandlers, modify_numHandlers,
      count_maxHandlers, count_numHandlers, lock_numHandlers, lock_maxHandlers]
    omega

end NetwTable

/-- What holds of every table of a run, and of the numbers that were returned. -/
theorem sized_run (malloc : ℕ → Option (ℕ → NetwHandler)) (ops : List NetwOp) :
  ((NetwHistory.start malloc).run ops).table.Sized ∧ ((NetwHistory.start malloc).run ops).Counted
  := by
  have hsized := NetwTable.sized_netwInit malloc
  have hcount := NetwHistory.counted_start malloc
  change (NetwHistory.start malloc).table.Sized at hsized
  generalize NetwHistory.start malloc = s at hsized hcount
  induction ops generalizing s with
  | nil => exact ⟨hsized, hcount⟩
  | cons op ops ih =>
    apply ih (s.step op) _ (hcount.step op)
    rw [NetwHistory.step]
    split_ifs
    · exact hsized
    · cases op with
      | registerHandler cb arg => exact hsized.registerHandler cb arg
      | handlerSetCb handlerId cb => exact hsized.handlerSet handlerId _
      | handlerSetCbArg handlerId arg => exact hsized.handlerSet handlerId _

/-! ### The dispatch -/

section

variable {D E A : Type} {srv : NetServer D E A} {i : Fin maxOpenConnections} {b : Bufferevent}
  {t : NetwTable}

/-- A line that has not come whole is a null pointer. -/
theorem netwIncommingCb_of_no_line (hb : (srv.connections i).bev = some b)
    (hline : readln b.input = none) (relocks : Bool) (t : NetwTable) (type : Int16) :
  (netwIncommingCb relocks t srv i.val type).ended = .crashed
  := by
  simp [netwIncommingCb, netConnectionGetBuffer, hb, hline]

/-- The first line of a connection is looked for when the connection is accepted, and never
there: every connection that is accepted crashes the process. -/
theorem listenEvtCb_crashes (hi : netEmptyConnectionSlot srv = some i)
    (hbev : (srv.outcome srv.calls).bevNew = true) (hmalloc : (srv.outcome srv.calls).malloc = true)
    (peer : UInt32) (relocks : Bool) (t : NetwTable) :
  (listenEvtCb srv peer fun connection srv =>
    (netwIncommingCb relocks t srv connection bevEventConnected).srv).crashed = true
  := by
  have hnone : readln [] = none := rfl
  simp [listenEvtCb, hi, NetServer.ask, hbev, hmalloc, netwIncommingCb, netConnectionGetBuffer,
    NetServer.newBev, NetServer.modify, NetServer.modifyBev, NetServer.freshBev, hnone,
    NetServer.crash]

/-- A number that is refused leads to nothing. -/
theorem netwIncommingCb_of_refuses (hb : (srv.connections i).bev = some b) {token : List UInt8}
    (hline : readln b.input = some token) (hrefuses : t.Refuses (intOfLong (strtol16 token)))
    (relocks : Bool) (type : Int16) :
  let d := netwIncommingCb relocks t srv i.val type
  d.ended = .returned ∧ d.invoked = [] ∧ d.table = t.lock.unlock
  := by
  have hlock : t.lock.Refuses (intOfLong (strtol16 token)) := hrefuses
  simp [netwIncommingCb, netConnectionGetBuffer, hb, hline, hlock]

/-- For a number that is not refused, the table is locked twice. -/
theorem netwIncommingCb_of_not_refuses (hb : (srv.connections i).bev = some b)
    {token : List UInt8} (hline : readln b.input = some token)
    (haccepted : ¬ t.Refuses (intOfLong (strtol16 token))) (relocks : Bool) (type : Int16) :
  (netwIncommingCb relocks t srv i.val type).table.log = t.log ++ [.lock t.handlersLock, .lock true]
  := by
  have hlock : ¬ t.lock.Refuses (intOfLong (strtol16 token)) := haccepted
  have hlog : t.lock.lock.log = t.log ++ [.lock t.handlersLock, .lock true] :=
    List.append_assoc _ _ _
  simp only [netwIncommingCb, netConnectionGetBuffer, netSlot_coe, hb, hline, if_neg hlock]
  split_ifs
  · exact hlog
  · split
    · exact hlog
    · exact hlog

/-- A number that was returned is not refused in the line that is written for it. -/
theorem not_refuses_hexNumeral (hsized : t.Sized) (hrunning : t.crashed = false) {hId : ℤ}
    (hnonneg : 0 ≤ hId) (hlt : hId < t.numHandlers) :
  ¬ t.Refuses (intOfLong (strtol16 (hexNumeral hId.toNat)))
  := by
  obtain ⟨-, hnum, hmax⟩ := hsized.size hrunning
  have hle : hId ≤ intMax := by omega
  have hlong : hId.toNat < 2 ^ 63 := by
    unfold intMax at hle
    omega
  rw [strtol16_hexNumeral hlong, Int.toNat_of_nonneg hnonneg, intOfLong_of_le hnonneg hle]
  rintro (hneg | hlarge) <;> omega

end

/-- In every run of the wrapper, a connection is dispatched as it should be exactly when a
whole line has arrived on it and the number in that is refused. -/
theorem dispatchesRight_iff {D E A : Type} {srv : NetServer D E A} {i : Fin maxOpenConnections}
    {b : Bufferevent} (hb : (srv.connections i).bev = some b)
    (malloc : ℕ → Option (ℕ → NetwHandler)) (ops : List NetwOp)
    (hrunning : ((NetwHistory.start malloc).run ops).table.crashed = false) (relocks : Bool)
    (type : Int16) :
  let s := (NetwHistory.start malloc).run ops
  DispatchesRight s b.input i.val type (netwIncommingCb relocks s.table srv i.val type)
    ↔ ∃ token, readln b.input = some token ∧ s.table.Refuses (intOfLong (strtol16 token))
  := by
  obtain ⟨hsized, hcount⟩ := sized_run malloc ops
  generalize (NetwHistory.start malloc).run ops = s at hrunning hsized hcount ⊢
  dsimp only
  constructor
  · intro h
    cases hline : readln b.input with
    | none =>
      have hended := h.returns
      rw [netwIncommingCb_of_no_line hb hline] at hended
      cases hended
    | some token =>
      refine ⟨token, rfl, ?_⟩
      by_contra haccepted
      obtain ⟨uses, huses, hnot⟩ := h.locks
      rw [netwIncommingCb_of_not_refuses hb hline haccepted] at huses
      apply hnot
      rw [← List.append_cancel_left huses]
      simp
  · rintro ⟨token, hline, hrefuses⟩
    obtain ⟨hended, hinvoked, htable⟩ := netwIncommingCb_of_refuses hb hline hrefuses relocks type
    constructor
    · exact hended
    · rw [hinvoked]
      exact Nat.zero_le 1
    · intro hId h rest hlast hinput
      obtain ⟨hnonneg, hlt⟩ := hcount.mem_of_last hlast
      rw [hinput, readln_handlerLine] at hline
      obtain rfl := Option.some.inj hline
      exact absurd hrefuses (not_refuses_hexNumeral hsized hrunning hnonneg hlt)
    · intro _
      exact hinvoked
    · refine ⟨[.lock s.table.handlersLock, .unlock true], ?_, ?_⟩
      · rw [htable]
        exact List.append_assoc _ _ _
      · rw [hsized.free]
        decide
    · rw [htable]
      rfl

/-- A server with a connection on which `input` has arrived. -/
def incoming (input : List UInt8) : NetServer Unit Unit Unit :=
  let srv := NetServer.empty fun _ => .fine
  (srv.newBev 0 1).modifyBev 0 fun b => { b with input := input }

/-- The connection. -/
def incomingBev (input : List UInt8) : Bufferevent :=
  { serial := 0, input := input, output := [], low := 0, enabled := false, peer := 1 }

theorem incoming_bev (input : List UInt8) :
  ((incoming input).connections 0).bev = some (incomingBev input)
  := by
  simp [incoming, NetServer.modifyBev, NetServer.newBev, NetServer.modify, NetServer.freshBev,
    NetServer.empty, incomingBev]

/-- One handler is registered: the number `F` is refused as it should be, and the number of the
handler is not found. -/
theorem dispatchesRight_iff_oneHandler :
  let s := (NetwHistory.start NetwHistory.zeroed).run [.registerHandler 1 1]
  DispatchesRight s [70, 10] 0 0 (netwIncommingCb true s.table (incoming [70, 10]) 0 0)
    ∧ ¬ DispatchesRight s [48, 10] 0 0 (netwIncommingCb true s.table (incoming [48, 10]) 0 0)
  := by
  constructor
  · apply (dispatchesRight_iff (incoming_bev [70, 10]) NetwHistory.zeroed [.registerHandler 1 1]
      (by decide) true 0).mpr
    exact ⟨[70], by decide, by decide⟩
  · intro h
    obtain ⟨token, hline, hrefuses⟩ := (dispatchesRight_iff (incoming_bev [48, 10])
      NetwHistory.zeroed [.registerHandler 1 1] (by decide) true 0).mp h
    have hread : readln [48, 10] = some [48] := by decide
    obtain rfl := Option.some.inj (hread.symm.trans hline)
    revert hrefuses
    decide

/-- A connection whose first line has not come is not dispatched as it should be, and one for the
first handler is not either. -/
theorem dispatch_crashes_or_locks_twice :
  let s := (NetwHistory.start NetwHistory.zeroed).run [.registerHandler 1 1]
  (∀ relocks, ¬ DispatchesRight s [] 0 0 (netwIncommingCb relocks s.table (incoming []) 0 0))
    ∧ ∀ relocks, ¬ DispatchesRight s (handlerLine 0) 0 0
      (netwIncommingCb relocks s.table (incoming (handlerLine 0)) 0 0)
  := by
  intro s
  have hzero : ((0 : Fin maxOpenConnections).val : ℤ) = 0 := rfl
  constructor
  · intro relocks h
    have hended := h.returns
    have hnone : readln (incomingBev []).input = none := rfl
    have hcrash := netwIncommingCb_of_no_line (incoming_bev []) hnone relocks s.table 0
    rw [hzero] at hcrash
    rw [hcrash] at hended
    cases hended
  · intro relocks h
    obtain ⟨uses, huses, hnot⟩ := h.locks
    have hline := readln_handlerLine 0 []
    rw [List.append_nil] at hline
    have htwice := netwIncommingCb_of_not_refuses (incoming_bev (handlerLine 0)) hline
      (t := s.table) (by decide) relocks 0
    rw [hzero] at htwice
    rw [htwice] at huses
    apply hnot
    rw [← List.append_cancel_left huses]
    simp
