import LibDht.Net.Message

/-!
# Whose callbacks a connection uses

Closing a connection leaves its callbacks in the slot, and what takes the slot next sets
only some of them. The operations on the table are run here over stamped values: a callback
or an argument carries the serial of the connection that occupied the slot when it was set
there. As the functions of `netio.c` are the same over all types of callbacks, the stamps
have no influence on what they do.

A use of a callback is the connection's own when the callback and its argument carry the
serial of the connection. It is not exactly when the operation that took the slot found a
value in the field, skipped the setter of it, and nobody called the setter later.
-/

/-- A value in a slot of the table, and the connection that it was set for. -/
structure Stamped (X : Type) where
  value : X
  setFor : Option ℕ
  deriving DecidableEq

/-- What the bufferevent of a connection calls. -/
inductive Dispatch where
  | read
  | write
  | event
  deriving DecidableEq, Repr

/-- The use of a callback for a connection: whom the callback was set for, and the argument
it was called with. -/
structure Use (A : Type) where
  connection : ℕ
  cbSetFor : Option ℕ
  arg : Option (Stamped A)
  deriving DecidableEq

/-- Callback and argument were set for the connection they are used for. -/
def Use.Own {A : Type} (u : Use A) : Prop :=
  u.cbSetFor = some u.connection ∧ ∀ a ∈ u.arg, a.setFor = some u.connection

/-- The operations on the table, with their arguments, and what libevent calls. -/
inductive NetOp (D E A : Type) where
  | create (IP : UInt32) (port : UInt16)
  | accept (peer : UInt32) (readCb : D) (eventCb : E) (cbArg : A)
  | setReadCb (connection : ℤ) (cb : Option D)
  | setWriteCb (connection : ℤ) (cb : Option D)
  | setEventCb (connection : ℤ) (cb : Option E)
  | setCbArg (connection : ℤ) (cbArg : Option A)
  | connectAndSend (msg : NodeMessage) (readCb : Option D) (eventCb : Option E) (cbArg : Option A)
  | close (connection : ℤ)
  | dispatch (d : Dispatch) (i : Fin maxOpenConnections)

/-- A table with its history: the callbacks used. -/
structure TableHistory (D E A : Type) where
  srv : NetServer (Stamped D) (Stamped E) (Stamped A)
  uses : List (Use A)

section

variable {D E A X : Type}

/-- A value to be set on a connection. -/
def NetServer.stamp (srv : NetServer D E A) (connection : ℤ) (v : Option X) : Option (Stamped X) :=
  v.map fun x => { value := x, setFor := srv.serialAt connection }

/-- A value to be set on the connection that is made next. -/
def NetServer.stampNext (srv : NetServer D E A) (x : X) : Stamped X :=
  { value := x, setFor := some srv.nextSerial }

/-- What a dispatch on the slot `i` uses. -/
def Dispatch.uses (srv : NetServer (Stamped D) (Stamped E) (Stamped A))
    (i : Fin maxOpenConnections) :
    Dispatch → Option (Option ℕ × Option (Stamped A))
  | .read => (netConnectionReadCb srv i.val).map fun (cb, _, arg) => (cb.setFor, arg)
  | .write => (netConnectionWriteCb srv i.val).map fun (cb, _, arg) => (cb.setFor, arg)
  | .event => (netConnectionEventCb srv i.val).map fun (cb, _, arg) => (cb.setFor, arg)

namespace TableHistory

/-- An empty table without a history. -/
def start (outcome : ℕ → Outcome) : TableHistory D E A :=
  { srv := NetServer.empty outcome, uses := [] }

/-- One operation. A slot without a connection has no dispatches. -/
def step (h : TableHistory D E A) : NetOp D E A → TableHistory D E A
  | .create IP port => { h with srv := (netConnectionCreate h.srv IP port).2 }
  | .accept peer readCb eventCb cbArg =>
    { h with
      srv := listenEvtCb h.srv peer
        (incomingConnection (h.srv.stampNext readCb) (h.srv.stampNext eventCb)
          (h.srv.stampNext cbArg)) }
  | .setReadCb connection cb =>
    { h with srv := (netConnectionSetReadCb h.srv connection (h.srv.stamp connection cb)).2 }
  | .setWriteCb connection cb =>
    { h with srv := (netConnectionSetWriteCb h.srv connection (h.srv.stamp connection cb)).2 }
  | .setEventCb connection cb =>
    { h with srv := (netConnectionSetEventCb h.srv connection (h.srv.stamp connection cb)).2 }
  | .setCbArg connection cbArg =>
    { h with srv := (netConnectionSetCbArg h.srv connection (h.srv.stamp connection cbArg)).2 }
  | .connectAndSend msg readCb eventCb cbArg =>
    { h with
      srv := (nodeConnectAndSendMessage h.srv msg (readCb.map h.srv.stampNext)
        (eventCb.map h.srv.stampNext) (cbArg.map h.srv.stampNext)).2 }
  | .close connection => { h with srv := netConnectionClose h.srv connection }
  | .dispatch d i =>
    match (h.srv.connections i).bev with
    | some b =>
      { h with uses := h.uses ++ ((d.uses h.srv i).map fun u => ⟨b.serial, u.1, u.2⟩).toList }
    | none => h

/-- A run of operations. -/
def run (h : TableHistory D E A) (ops : List (NetOp D E A)) : TableHistory D E A :=
  ops.foldl step h

end TableHistory

/-! ### The fields of a slot -/

/-- What a slot holds for its user. -/
inductive SlotField where
  | readCb
  | writeCb
  | evtCb
  | cbArg
  deriving DecidableEq, Repr

namespace SlotField

/-- The field is not NULL. -/
def Held (c : NetConnection D E A) : SlotField → Prop
  | .readCb => c.readCb.isSome
  | .writeCb => c.writeCb.isSome
  | .evtCb => c.evtCb.isSome
  | .cbArg => c.upperCbArg.isSome

/-- The connection that the value of a field was set for. -/
def stamp (c : NetConnection (Stamped D) (Stamped E) (Stamped A)) : SlotField → Option (Option ℕ)
  | .readCb => c.readCb.map Stamped.setFor
  | .writeCb => c.writeCb.map Stamped.setFor
  | .evtCb => c.evtCb.map Stamped.setFor
  | .cbArg => c.upperCbArg.map Stamped.setFor

variable {c : NetConnection (Stamped D) (Stamped E) (Stamped A)} {b : Bufferevent}

theorem held_iff {f : SlotField} :
  f.Held c ↔ ∃ s, f.stamp c = some s
  := by
  rw [← Option.isSome_iff_exists]
  cases f <;> simp [Held, stamp]

/-- The value of a field was not set for the connection `b`. -/
def Foreign (c : NetConnection (Stamped D) (Stamped E) (Stamped A)) (b : Bufferevent)
    (f : SlotField) : Prop :=
  ∃ s, f.stamp c = some s ∧ s ≠ some b.serial

end SlotField

/-- The callback that a dispatch uses. -/
def Dispatch.field : Dispatch → SlotField
  | .read => .readCb
  | .write => .writeCb
  | .event => .evtCb

namespace NetOp

/-- When the operation takes a slot, it leaves the field as it is. -/
def Skips (f : SlotField) : NetOp D E A → Prop
  | .create _ _ => True
  | .accept _ _ _ _ => f = .writeCb
  | .connectAndSend _ readCb eventCb cbArg =>
    match f with
    | .readCb => readCb = none
    | .writeCb => True
    | .evtCb => eventCb = none
    | .cbArg => cbArg = none
  | _ => False

/-- The operation calls the setter of the field on the slot `i`. -/
def Sets (i : Fin maxOpenConnections) (f : SlotField) : NetOp D E A → Prop
  | .setReadCb connection _ => f = .readCb ∧ netSlot connection = some i
  | .setWriteCb connection _ => f = .writeCb ∧ netSlot connection = some i
  | .setEventCb connection _ => f = .evtCb ∧ netSlot connection = some i
  | .setCbArg connection _ => f = .cbArg ∧ netSlot connection = some i
  | _ => False

end NetOp

/-- The operation that took the slot `i` for its connection found a value in the field and left
it there, and nobody called the setter later. -/
def TableHistory.LeftOver (h : TableHistory D E A) (ops : List (NetOp D E A))
    (i : Fin maxOpenConnections) (f : SlotField) : Prop :=
  ∃ before op after, ops = before ++ op :: after
    ∧ ((h.run before).srv.connections i).bev = none
    ∧ (∀ l l', after = l ++ l' → ((h.run (before ++ op :: l)).srv.connections i).bev.isSome)
    ∧ f.Held ((h.run before).srv.connections i) ∧ op.Skips f ∧ ∀ op' ∈ after, ¬ op'.Sets i f

/-! ### What an operation does to a slot -/

/-- What an operation does to a slot that held `c`, when the serials of the connections made so
far are those below `n`, and afterwards those below `n'`: the slot is empty afterwards, or taken
for a new connection, or it keeps its connection. -/
inductive SlotStep (n n' : ℕ) (op : NetOp D E A) (i : Fin maxOpenConnections)
    (c c' : NetConnection (Stamped D) (Stamped E) (Stamped A)) : Prop
  | emptied (hn : n ≤ n') (hbev : c'.bev = none)
      (hstamp : ∀ f : SlotField, f.stamp c' = f.stamp c ∨ f.stamp c' = some (some n) ∧ n < n')
  | made {b : Bufferevent} (hbev : c.bev = none) (hbev' : c'.bev = some b) (hserial : b.serial = n)
      (hn : n < n') (hskipped : ∀ f, op.Skips f → f.stamp c' = f.stamp c)
      (hset : ∀ f, ¬ op.Skips f → f.stamp c' = some (some n))
  | kept (hn : n ≤ n') (hbev : c'.bev = c.bev) (hkept : ∀ f, ¬ op.Sets i f → f.stamp c' = f.stamp c)
      (hset : ∀ f, op.Sets i f →
        f.stamp c' = none ∨ f.stamp c' = some (c.bev.map Bufferevent.serial))

/-- A slot that no setter of the operation is called on stays as it is. -/
theorem SlotStep.same {n n' : ℕ} {op : NetOp D E A} {i : Fin maxOpenConnections}
    (hn : n ≤ n') (c : NetConnection (Stamped D) (Stamped E) (Stamped A))
    (hop : ∀ f, ¬ op.Sets i f) :
  SlotStep n n' op i c c
  := .kept hn rfl (fun _ _ => rfl) (fun f hf => absurd hf (hop f))

theorem SlotStep.nextSerial_le {n n' : ℕ} {op : NetOp D E A} {i : Fin maxOpenConnections}
    {c c' : NetConnection (Stamped D) (Stamped E) (Stamped A)} (h : SlotStep n n' op i c c') :
  n ≤ n'
  := by
  cases h with
  | emptied hn => exact hn
  | made hbev hbev' hserial hn => exact hn.le
  | kept hn => exact hn

namespace TableHistory

variable {h : TableHistory D E A} {i : Fin maxOpenConnections}

/-- An operation that calls no setters changes at most the first empty slot. -/
theorem slotStep_of_update {op : NetOp D E A} {j : Fin maxOpenConnections}
    (hop : ∀ i f, ¬ op.Sets i f) {n' : ℕ} (hn : h.srv.nextSerial ≤ n')
    {c : NetConnection (Stamped D) (Stamped E) (Stamped A)}
    (hc : SlotStep h.srv.nextSerial n' op j (h.srv.connections j) c) :
  SlotStep h.srv.nextSerial n' op i (h.srv.connections i)
    (Function.update h.srv.connections j c i)
  := by
  by_cases hij : i = j
  · rw [hij, Function.update_self]
    exact hc
  · rw [Function.update_of_ne hij]
    exact SlotStep.same hn _ (hop i)

/-- A slot that is taken and lost again. -/
theorem slotStep_lost {op : NetOp D E A} (j : Fin maxOpenConnections) {n' : ℕ}
    (hn : h.srv.nextSerial ≤ n') :
  SlotStep h.srv.nextSerial n' op j (h.srv.connections j)
    { h.srv.connections j with bev := none, sin := (0, 0), netCbArg := none }
  := by
  apply SlotStep.emptied hn rfl
  intro f
  left
  cases f <;> rfl

theorem slotStep_create (IP : UInt32) (port : UInt16) :
  SlotStep h.srv.nextSerial (h.step (.create IP port)).srv.nextSerial (.create IP port) i
    (h.srv.connections i) ((h.step (.create IP port)).srv.connections i)
  := by
  have hop : ∀ i f, ¬ (.create IP port : NetOp D E A).Sets i f := fun _ _ => not_false
  simp only [step]
  cases hj : netEmptyConnectionSlot h.srv with
  | none =>
    rw [netConnectionCreate, hj]
    exact SlotStep.same (le_refl _) _ (hop i)
  | some j =>
    rw [netConnectionCreate_of_slot hj]
    split_ifs with hbev hmalloc
    · apply slotStep_of_update hop (Nat.le_succ _)
      refine .made (b := h.srv.freshBev IP) (netEmptyConnectionSlot_bev hj) rfl rfl
        (Nat.lt_succ_self _) ?_ ?_
      · intro f _
        cases f <;> rfl
      · intro f hf
        exact absurd trivial hf
    · exact slotStep_of_update hop (Nat.le_succ _) (slotStep_lost j (Nat.le_succ _))
    · exact SlotStep.same (le_refl _) _ (hop i)

theorem slotStep_accept (peer : UInt32) (readCb : D) (eventCb : E) (cbArg : A) :
  SlotStep h.srv.nextSerial (h.step (.accept peer readCb eventCb cbArg)).srv.nextSerial
    (.accept peer readCb eventCb cbArg) i (h.srv.connections i)
    ((h.step (.accept peer readCb eventCb cbArg)).srv.connections i)
  := by
  have hop : ∀ i f, ¬ (.accept peer readCb eventCb cbArg : NetOp D E A).Sets i f :=
    fun _ _ => not_false
  simp only [step]
  cases hj : netEmptyConnectionSlot h.srv with
  | none =>
    rw [listenEvtCb, hj]
    exact SlotStep.same (le_refl _) _ (hop i)
  | some j =>
    rw [listenEvtCb_of_slot hj]
    split_ifs with hbev hmalloc
    · apply slotStep_of_update hop (Nat.le_succ _)
      refine .made (b := { h.srv.freshBev peer with low := headerBytes, enabled := true })
        (netEmptyConnectionSlot_bev hj) rfl rfl (Nat.lt_succ_self _) ?_ ?_
      · rintro f rfl
        rfl
      · intro f hf
        cases f with
        | writeCb => exact absurd rfl hf
        | _ => rfl
    · exact slotStep_of_update hop (Nat.le_succ _) (slotStep_lost j (Nat.le_succ _))
    · exact SlotStep.same (le_refl _) _ (hop i)

/-- What a new connection is made with stands in the field, or else what was there before. -/
theorem stamp_taken (c : NetConnection (Stamped D) (Stamped E) (Stamped A))
    (j : Fin maxOpenConnections) (b : Bufferevent) (msg : NodeMessage) (readCb : Option D)
    (eventCb : Option E) (cbArg : Option A) (f : SlotField) :
  let op : NetOp D E A := .connectAndSend msg readCb eventCb cbArg
  let c' := taken c j b msg (readCb.map h.srv.stampNext) (eventCb.map h.srv.stampNext)
    (cbArg.map h.srv.stampNext)
  (op.Skips f → f.stamp c' = f.stamp c)
    ∧ (¬ op.Skips f → f.stamp c' = some (some h.srv.nextSerial))
  := by
  cases f with
  | readCb => cases readCb <;> simp [NetOp.Skips, SlotField.stamp, taken, NetServer.stampNext]
  | writeCb => simp [NetOp.Skips, SlotField.stamp, taken]
  | evtCb => cases eventCb <;> simp [NetOp.Skips, SlotField.stamp, taken, NetServer.stampNext]
  | cbArg => cases cbArg <;> simp [NetOp.Skips, SlotField.stamp, taken, NetServer.stampNext]

theorem slotStep_connectAndSend (msg : NodeMessage) (readCb : Option D) (eventCb : Option E)
    (cbArg : Option A) :
  SlotStep h.srv.nextSerial (h.step (.connectAndSend msg readCb eventCb cbArg)).srv.nextSerial
    (.connectAndSend msg readCb eventCb cbArg) i (h.srv.connections i)
    ((h.step (.connectAndSend msg readCb eventCb cbArg)).srv.connections i)
  := by
  have hop : ∀ i f, ¬ (.connectAndSend msg readCb eventCb cbArg : NetOp D E A).Sets i f :=
    fun _ _ => not_false
  simp only [step]
  have htaken := fun j b f =>
    stamp_taken (h := h) (h.srv.connections j) j b msg readCb eventCb cbArg f
  have hattempt := nodeConnectAndSendMessage_attempt h.srv msg (readCb.map h.srv.stampNext)
    (eventCb.map h.srv.stampNext) (cbArg.map h.srv.stampNext)
  generalize nodeConnectAndSendMessage h.srv msg (readCb.map h.srv.stampNext)
    (eventCb.map h.srv.stampNext) (cbArg.map h.srv.stampNext) = result at hattempt
  have hmade : ∀ j b, netEmptyConnectionSlot h.srv = some j → b.serial = h.srv.nextSerial →
      SlotStep h.srv.nextSerial (h.srv.nextSerial + 1)
        (.connectAndSend msg readCb eventCb cbArg) j (h.srv.connections j)
        (taken (h.srv.connections j) j b msg (readCb.map h.srv.stampNext)
          (eventCb.map h.srv.stampNext) (cbArg.map h.srv.stampNext)) := by
    intro j b hj hb
    exact SlotStep.made (netEmptyConnectionSlot_bev hj) rfl hb (Nat.lt_succ_self _)
      (fun f => (htaken j b f).1) (fun f => (htaken j b f).2)
  cases hattempt with
  | none calls => exact SlotStep.same (le_refl _) _ (hop i)
  | lost hj calls =>
    exact slotStep_of_update hop (Nat.le_succ _) (slotStep_lost _ (Nat.le_succ _))
  | @refused j hj calls =>
    apply slotStep_of_update hop (Nat.le_succ _)
    apply SlotStep.emptied (Nat.le_succ _) rfl
    intro f
    obtain ⟨hskipped, hset⟩ := htaken j (h.srv.freshBev msg.dest.IP) f
    have hclosed : f.stamp { taken (h.srv.connections j) j (h.srv.freshBev msg.dest.IP) msg
          (readCb.map h.srv.stampNext) (eventCb.map h.srv.stampNext) (cbArg.map h.srv.stampNext)
          with bev := none, sin := (0, 0), netCbArg := none }
        = f.stamp (taken (h.srv.connections j) j (h.srv.freshBev msg.dest.IP) msg
          (readCb.map h.srv.stampNext) (eventCb.map h.srv.stampNext)
          (cbArg.map h.srv.stampNext)) := by
      cases f <;> rfl
    rw [hclosed]
    by_cases hskip : (.connectAndSend msg readCb eventCb cbArg : NetOp D E A).Skips f
    · exact Or.inl (hskipped hskip)
    · exact Or.inr ⟨hset hskip, Nat.lt_succ_self _⟩
  | unsent hj calls => exact slotStep_of_update hop (Nat.le_succ _) (hmade _ _ hj rfl)
  | sent hj calls => exact slotStep_of_update hop (Nat.le_succ _) (hmade _ _ hj rfl)

/-- A setter of one field is called. -/
theorem slotStep_set {op : NetOp D E A} (connection : ℤ) (f : SlotField)
    (hop : ∀ i f', op.Sets i f' ↔ f' = f ∧ netSlot connection = some i)
    (g : Option ℕ → NetConnection (Stamped D) (Stamped E) (Stamped A) →
      NetConnection (Stamped D) (Stamped E) (Stamped A))
    (hbev : ∀ s c, (g s c).bev = c.bev) (hother : ∀ s c, ∀ f' ≠ f, f'.stamp (g s c) = f'.stamp c)
    (hself : ∀ s c, f.stamp (g s c) = none ∨ f.stamp (g s c) = some s) :
  SlotStep h.srv.nextSerial
    (netConnectionSet h.srv connection (g (h.srv.serialAt connection))).2.nextSerial op i
    (h.srv.connections i)
    ((netConnectionSet h.srv connection (g (h.srv.serialAt connection))).2.connections i)
  := by
  simp only [netConnectionSet, NetServer.serialAt]
  cases hj : netSlot connection with
  | none =>
    apply SlotStep.same (le_refl _)
    intro f' hf'
    have hi := ((hop i f').mp hf').2
    rw [hj] at hi
    cases hi
  | some j =>
    simp only [NetServer.modify]
    by_cases hij : i = j
    · subst hij
      rw [Function.update_self]
      apply SlotStep.kept (le_refl _) (hbev _ _)
      · intro f' hf'
        apply hother
        rintro rfl
        exact hf' ((hop i f').mpr ⟨rfl, hj⟩)
      · intro f' hf'
        obtain ⟨rfl, -⟩ := (hop i f').mp hf'
        exact hself _ _
    · rw [Function.update_of_ne hij]
      apply SlotStep.same (le_refl _)
      intro f' hf'
      have hi := ((hop i f').mp hf').2
      rw [hj, Option.some.injEq] at hi
      exact hij hi.symm

theorem slotStep_close (connection : ℤ) :
  SlotStep h.srv.nextSerial (h.step (.close connection)).srv.nextSerial (.close connection) i
    (h.srv.connections i) ((h.step (.close connection)).srv.connections i)
  := by
  have hop : ∀ i f, ¬ (.close connection : NetOp D E A).Sets i f := fun _ _ => not_false
  simp only [step, netConnectionClose]
  cases hj : netSlot connection with
  | none => exact SlotStep.same (le_refl _) _ (hop i)
  | some j => exact slotStep_of_update hop (le_refl _) (slotStep_lost j (le_refl _))

/-- What an operation of a run does to a slot. -/
theorem slotStep_step (h : TableHistory D E A) (op : NetOp D E A) (i : Fin maxOpenConnections) :
  SlotStep h.srv.nextSerial (h.step op).srv.nextSerial op i (h.srv.connections i)
    ((h.step op).srv.connections i)
  := by
  cases op with
  | create IP port => exact slotStep_create IP port
  | accept peer readCb eventCb cbArg => exact slotStep_accept peer readCb eventCb cbArg
  | setReadCb connection cb =>
    apply slotStep_set connection .readCb (fun _ _ => Iff.rfl)
      (fun s c => { c with readCb := cb.map (Stamped.mk · s) }) (fun _ _ => rfl)
    · intro s c f hf
      cases f with
      | readCb => exact absurd rfl hf
      | _ => rfl
    · intro s c
      cases cb <;> simp [SlotField.stamp]
  | setWriteCb connection cb =>
    apply slotStep_set connection .writeCb (fun _ _ => Iff.rfl)
      (fun s c => { c with writeCb := cb.map (Stamped.mk · s) }) (fun _ _ => rfl)
    · intro s c f hf
      cases f with
      | writeCb => exact absurd rfl hf
      | _ => rfl
    · intro s c
      cases cb <;> simp [SlotField.stamp]
  | setEventCb connection cb =>
    apply slotStep_set connection .evtCb (fun _ _ => Iff.rfl)
      (fun s c => { c with evtCb := cb.map (Stamped.mk · s) }) (fun _ _ => rfl)
    · intro s c f hf
      cases f with
      | evtCb => exact absurd rfl hf
      | _ => rfl
    · intro s c
      cases cb <;> simp [SlotField.stamp]
  | setCbArg connection cbArg =>
    apply slotStep_set connection .cbArg (fun _ _ => Iff.rfl)
      (fun s c => { c with upperCbArg := cbArg.map (Stamped.mk · s) }) (fun _ _ => rfl)
    · intro s c f hf
      cases f with
      | cbArg => exact absurd rfl hf
      | _ => rfl
    · intro s c
      cases cbArg <;> simp [SlotField.stamp]
  | connectAndSend msg readCb eventCb cbArg =>
    exact slotStep_connectAndSend msg readCb eventCb cbArg
  | close connection => exact slotStep_close connection
  | dispatch d j =>
    have hsame : (h.step (.dispatch d j)).srv = h.srv := by
      unfold step
      dsimp only
      split <;> rfl
    rw [hsame]
    exact SlotStep.same (le_refl _) _ fun _ => not_false

/-! ### Runs -/

@[simp] theorem run_nil (h : TableHistory D E A) : h.run [] = h := rfl

theorem run_snoc (h : TableHistory D E A) (ops : List (NetOp D E A)) (op : NetOp D E A) :
  h.run (ops ++ [op]) = (h.run ops).step op
  := List.foldl_append

/-- The connections and the values in the slots of a table are of connections made so far. -/
structure Sound (h : TableHistory D E A) : Prop where
  serial : ∀ i, ∀ b ∈ (h.srv.connections i).bev, b.serial < h.srv.nextSerial
  stamp : ∀ i (f : SlotField) s, f.stamp (h.srv.connections i) = some (some s) →
    s < h.srv.nextSerial

theorem sound_start (outcome : ℕ → Outcome) :
  (start outcome : TableHistory D E A).Sound
  := by
  constructor
  · intro i b hb
    cases hb
  · intro i f s hs
    cases f <;> cases hs

theorem Sound.step (hh : h.Sound) (op : NetOp D E A) :
  (h.step op).Sound
  := by
  have hle := (slotStep_step h op 0).nextSerial_le
  constructor
  · intro i b hb
    cases slotStep_step h op i with
    | emptied hn hbev =>
      rw [hbev] at hb
      cases hb
    | made hbev hbev' hserial hn =>
      rw [hbev'] at hb
      obtain rfl := Option.some.inj hb
      rwa [hserial]
    | kept hn hbev =>
      rw [hbev] at hb
      exact lt_of_lt_of_le (hh.serial i b hb) hle
  · intro i f s hs
    have hold : f.stamp (h.srv.connections i) = some (some s) → s < (h.step op).srv.nextSerial :=
      fun hs => lt_of_lt_of_le (hh.stamp i f s hs) hle
    cases slotStep_step h op i with
    | emptied hn hbev hstamp =>
      rcases hstamp f with heq | ⟨heq, hn⟩
      · exact hold (heq ▸ hs)
      · rw [heq, Option.some.injEq, Option.some.injEq] at hs
        rwa [← hs]
    | made hbev hbev' hserial hn hskipped hset =>
      by_cases hskip : op.Skips f
      · exact hold (hskipped f hskip ▸ hs)
      · rw [hset f hskip, Option.some.injEq, Option.some.injEq] at hs
        rwa [← hs]
    | kept hn hbev hkept hset =>
      by_cases hsets : op.Sets i f
      · rcases hset f hsets with heq | heq
        · rw [heq] at hs
          cases hs
        · rw [heq, Option.some.injEq] at hs
          obtain ⟨b, hb, rfl⟩ := Option.map_eq_some_iff.mp hs
          exact lt_of_lt_of_le (hh.serial i b hb) hle
      · exact hold (hkept f hsets ▸ hs)

theorem Sound.run (hh : h.Sound) (ops : List (NetOp D E A)) :
  (h.run ops).Sound
  := by
  induction ops generalizing h with
  | nil => exact hh
  | cons op ops ih => exact ih (hh.step op)

/-! ### What is left over -/

section

variable {ops : List (NetOp D E A)} {op : NetOp D E A} {f : SlotField}

/-- The connection of a slot has just been made. -/
theorem leftOver_made (hbev : ((h.run ops).srv.connections i).bev = none)
    (hbev' : ((h.run (ops ++ [op])).srv.connections i).bev.isSome) :
  h.LeftOver (ops ++ [op]) i f ↔ f.Held ((h.run ops).srv.connections i) ∧ op.Skips f
  := by
  constructor
  · rintro ⟨before, op', after, heq, -, htaken, hheld, hskips, -⟩
    rcases List.eq_nil_or_concat after with rfl | ⟨after', last, rfl⟩
    · obtain ⟨rfl, hop⟩ := List.append_inj' heq rfl
      cases hop
      exact ⟨hheld, hskips⟩
    · rw [List.concat_eq_append, ← List.cons_append, ← List.append_assoc] at heq
      obtain ⟨rfl, -⟩ := List.append_inj' heq rfl
      have hsome := htaken after' [last] (List.concat_eq_append ..)
      rw [hbev] at hsome
      cases hsome
  · rintro ⟨hheld, hskips⟩
    refine ⟨ops, op, [], rfl, hbev, ?_, hheld, hskips, fun _ hop' => absurd hop' List.not_mem_nil⟩
    intro l l' hl
    obtain ⟨rfl, -⟩ := List.append_eq_nil_iff.mp hl.symm
    exact hbev'

/-- A slot keeps its connection. -/
theorem leftOver_kept (hbev : ((h.run ops).srv.connections i).bev.isSome)
    (hbev' : ((h.run (ops ++ [op])).srv.connections i).bev.isSome) :
  h.LeftOver (ops ++ [op]) i f ↔ h.LeftOver ops i f ∧ ¬ op.Sets i f
  := by
  constructor
  · rintro ⟨before, op', after, heq, hnone, htaken, hheld, hskips, hsets⟩
    rcases List.eq_nil_or_concat after with rfl | ⟨after', last, rfl⟩
    · obtain ⟨rfl, -⟩ := List.append_inj' heq rfl
      rw [hnone] at hbev
      cases hbev
    · rw [List.concat_eq_append] at heq htaken hsets
      rw [← List.cons_append, ← List.append_assoc] at heq
      obtain ⟨rfl, hop⟩ := List.append_inj' heq rfl
      cases hop
      refine ⟨⟨before, op', after', rfl, hnone, ?_, hheld, hskips, ?_⟩, ?_⟩
      · rintro l l' rfl
        exact htaken l (l' ++ [op]) (List.append_assoc ..)
      · intro op'' hop''
        exact hsets op'' (List.mem_append_left _ hop'')
      · exact hsets op (List.mem_append_right _ List.mem_cons_self)
  · rintro ⟨⟨before, op', after, rfl, hnone, htaken, hheld, hskips, hsets⟩, hop⟩
    refine ⟨before, op', after ++ [op], by simp, hnone, ?_, hheld, hskips, ?_⟩
    · intro l l' hl
      rcases List.eq_nil_or_concat l' with rfl | ⟨l'', last, rfl⟩
      · rw [List.append_nil] at hl
        rw [← hl, ← List.cons_append, ← List.append_assoc]
        exact hbev'
      · rw [List.concat_eq_append, ← List.append_assoc] at hl
        obtain ⟨rfl, -⟩ := List.append_inj' hl rfl
        exact htaken l l'' rfl
    · intro op'' hop''
      rcases List.mem_append.mp hop'' with hop'' | hop''
      · exact hsets op'' hop''
      · rwa [List.mem_singleton.mp hop'']

end

/-- Nothing is left over where there is no connection. -/
theorem not_leftOver_of_empty {ops : List (NetOp D E A)} {f : SlotField}
    (hbev : ((h.run ops).srv.connections i).bev = none) :
  ¬ h.LeftOver ops i f
  := by
  rintro ⟨before, op, after, rfl, -, htaken, -⟩
  have hsome := htaken after [] (List.append_nil _).symm
  rw [hbev] at hsome
  cases hsome

/-- A value in a slot was set for another connection than the one that has it exactly when it
was left over. -/
theorem foreign_iff (outcome : ℕ → Outcome) (ops : List (NetOp D E A)) {b : Bufferevent}
    (hb : (((start outcome).run ops).srv.connections i).bev = some b) (f : SlotField) :
  f.Foreign (((start outcome).run ops).srv.connections i) b ↔ (start outcome).LeftOver ops i f
  := by
  induction ops using List.reverseRecOn generalizing b with
  | nil => cases hb
  | append_singleton ops op ih =>
    have hsome : (((start outcome).run (ops ++ [op])).srv.connections i).bev.isSome := by
      rw [hb]
      rfl
    have hsound := (sound_start outcome).run ops
    have hstep := slotStep_step ((start outcome).run ops) op i
    rw [← run_snoc] at hstep
    rw [SlotField.Foreign]
    cases hstep with
    | emptied hn hbev =>
      rw [hb] at hbev
      cases hbev
    | made hbev hbev' hserial hn hskipped hset =>
      rw [hb] at hbev'
      obtain rfl := Option.some.inj hbev'
      rw [leftOver_made hbev hsome, SlotField.held_iff, hserial]
      by_cases hskip : op.Skips f
      · rw [hskipped f hskip, and_iff_left hskip]
        refine exists_congr fun s => and_iff_left_of_imp ?_
        rintro hs rfl
        exact Nat.lt_irrefl _ (hsound.stamp i f _ hs)
      · rw [hset f hskip]
        constructor
        · rintro ⟨s, hs, hne⟩
          exact absurd (Option.some.inj hs).symm hne
        · rintro ⟨-, hskips⟩
          exact absurd hskips hskip
    | kept hn hbev hkept hset =>
      rw [hb] at hbev
      have hold := hbev.symm
      rw [leftOver_kept (hold ▸ rfl) hsome, ← ih hold, SlotField.Foreign]
      by_cases hsets : op.Sets i f
      · constructor
        · rintro ⟨s, hs, hne⟩
          rcases hset f hsets with heq | heq
          · rw [heq] at hs
            cases hs
          · rw [heq, hold, Option.some.injEq] at hs
            exact absurd hs.symm hne
        · rintro ⟨-, hnot⟩
          exact absurd hsets hnot
      · rw [hkept f hsets, and_iff_left hsets]

/-! ### The uses of a run -/

/-- A callback and its argument are the connection's own when neither was left over. -/
theorem own_iff {x : Option (Stamped X)} {b : Bufferevent} {arg : Option (Stamped A)} :
  (∀ v ∈ x, Use.Own ⟨b.serial, v.setFor, arg⟩)
    ↔ x.isSome → (∀ s, x.map Stamped.setFor = some s → s = some b.serial)
      ∧ ∀ s, arg.map Stamped.setFor = some s → s = some b.serial
  := by
  cases x with
  | none => simp
  | some v => cases arg <;> simp [Use.Own]

theorem dispatch_own_iff {srv : NetServer (Stamped D) (Stamped E) (Stamped A)} (d : Dispatch)
    (b : Bufferevent) :
  (∀ u ∈ d.uses srv i, Use.Own ⟨b.serial, u.1, u.2⟩)
    ↔ d.field.Held (srv.connections i) → ¬ d.field.Foreign (srv.connections i) b
      ∧ ¬ SlotField.cbArg.Foreign (srv.connections i) b
  := by
  simp only [SlotField.Foreign, not_exists, not_and, ne_eq, not_not]
  cases d with
  | read =>
    refine Iff.trans ?_ own_iff
    simp [Dispatch.uses, netConnectionReadCb]
  | write =>
    refine Iff.trans ?_ own_iff
    simp [Dispatch.uses, netConnectionWriteCb]
  | event =>
    refine Iff.trans ?_ own_iff
    simp [Dispatch.uses, netConnectionEventCb]

/-- What an operation adds to the uses, a dispatch uses. -/
theorem step_own_iff (h : TableHistory D E A) (op : NetOp D E A) :
  (∀ u ∈ (h.step op).uses, u.Own)
    ↔ (∀ u ∈ h.uses, u.Own) ∧ ∀ d i b, op = .dispatch d i → (h.srv.connections i).bev = some b →
      ∀ u ∈ d.uses h.srv i, Use.Own ⟨b.serial, u.1, u.2⟩
  := by
  cases op with
  | dispatch d i =>
    simp only [step]
    cases hb : (h.srv.connections i).bev with
    | none =>
      refine ⟨fun hown => ⟨hown, ?_⟩, And.left⟩
      rintro d i b ⟨⟩ hb'
      rw [hb] at hb'
      cases hb'
    | some b =>
      simp only [List.mem_append, or_imp, forall_and]
      apply and_congr_right'
      constructor
      · rintro hown d i b' ⟨⟩ hb' u hu
        obtain rfl := Option.some.inj (hb.symm.trans hb')
        apply hown
        simp [Option.mem_def.mp hu]
      · intro hown u hu
        simp only [Option.mem_toList, Option.map_eq_some_iff] at hu
        obtain ⟨u, hu, rfl⟩ := hu
        exact hown d i b rfl hb u hu
  | _ => simp [step]

/-- What is used in a run is what its dispatches use. -/
theorem run_own_iff (h : TableHistory D E A) (ops : List (NetOp D E A)) :
  (∀ u ∈ (h.run ops).uses, u.Own)
    ↔ (∀ u ∈ h.uses, u.Own) ∧ ∀ before d i after b, ops = before ++ .dispatch d i :: after →
      ((h.run before).srv.connections i).bev = some b →
      ∀ u ∈ d.uses (h.run before).srv i, Use.Own ⟨b.serial, u.1, u.2⟩
  := by
  induction ops generalizing h with
  | nil => simp
  | cons op ops ih =>
    have hrun : ∀ l, h.run (op :: l) = (h.step op).run l := fun _ => rfl
    rw [hrun, ih, step_own_iff, and_assoc]
    apply and_congr_right'
    constructor
    · rintro ⟨hfirst, hrest⟩ before d i after b heq hb
      cases before with
      | nil =>
        obtain ⟨rfl, rfl⟩ := List.cons.inj heq
        exact hfirst d i b rfl hb
      | cons op' before =>
        obtain ⟨rfl, rfl⟩ := List.cons.inj heq
        exact hrest before d i after b rfl hb
    · intro hall
      constructor
      · rintro d i b rfl hb
        exact hall [] d i ops b rfl hb
      · rintro before d i after b rfl hb
        exact hall (op :: before) d i after b rfl hb

/-- A run from an empty table uses no callback of an earlier connection exactly when at every
dispatch the callback and the argument were not left over by the operation that took the slot. -/
theorem callbacks_own_iff (outcome : ℕ → Outcome) (ops : List (NetOp D E A)) :
  (∀ u ∈ ((start outcome).run ops).uses, u.Own)
    ↔ ∀ before d i after, ops = before ++ .dispatch d i :: after →
      d.field.Held (((start outcome).run before).srv.connections i) →
      ¬ (start outcome).LeftOver before i d.field ∧ ¬ (start outcome).LeftOver before i .cbArg
  := by
  have hnone : ∀ u ∈ (start outcome : TableHistory D E A).uses, u.Own := by
    intro u hu
    cases hu
  rw [run_own_iff, and_iff_right hnone]
  simp only [dispatch_own_iff]
  constructor
  · intro hown before d i after heq hheld
    cases hb : (((start outcome).run before).srv.connections i).bev with
    | none => exact ⟨not_leftOver_of_empty hb, not_leftOver_of_empty hb⟩
    | some b =>
      rw [← foreign_iff outcome before hb, ← foreign_iff outcome before hb]
      exact hown before d i after b heq hb hheld
  · intro hown before d i after b heq hb hheld
    rw [foreign_iff outcome before hb, foreign_iff outcome before hb]
    exact hown before d i after heq hheld

end TableHistory

end

/-- A connection is made with all its callbacks and closed; the next one is made like those
of `nodeNotifyNode`, without a callback for data, and data arrives on it. -/
def reusedSlot (msg : NodeMessage) : List (NetOp Unit Unit Unit) :=
  [.connectAndSend msg (some ()) (some ()) (some ()), .close 0,
    .connectAndSend msg none (some ()) (some ()), .dispatch .read 0]

/-- The callback of the first connection is called for the second. -/
theorem TableHistory.callbacks_left_over :
  ¬ ∀ ops : List (NetOp Unit Unit Unit),
    ∀ u ∈ ((start fun _ => Outcome.fine).run ops).uses, u.Own
  := by
  intro h
  have hmem : (⟨1, some 0, some ⟨(), some 1⟩⟩ : Use Unit)
      ∈ ((start fun _ => Outcome.fine).run (reusedSlot ⟨nullNode, 0, 0, none⟩)).uses := by
    decide +kernel
  have hown := (h _ _ hmem).1
  simp at hown
