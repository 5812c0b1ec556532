import LibDht.Net.Moves
import LibDht.Node.Locking

/-!
# The operations of a process over the connection table

Whatever happens to a process over its connection table comes down to operations of the
node, and to what uses no mutex: reading and writing buffers, setting callbacks, opening and
closing connections. What holds of the mutex in every run of operations therefore holds in
the runs over the connection table.
-/

/-- An application that starts no lookups in its callbacks. -/
def silent {ν : Type} : App ν :=
  fun _ _ _ _ => []

/-- The process `q` comes from `p` by operations, and what is no use of the mutex. -/
def Performs (p q : NodeProcess) : Prop :=
  ∃ steps : List (LockStep NodeNet), q = steps.foldl (fun p step => step.run silent p) p

namespace Performs

variable {p q r : NodeProcess}

theorem refl (p : NodeProcess) :
  Performs p p
  := ⟨[], rfl⟩

theorem operation (h : Performs p q) (o : Operation) :
  Performs p (o.run silent 0 q)
  := by
  obtain ⟨steps, rfl⟩ := h
  exact ⟨steps ++ [.operation 0 o], by rw [List.foldl_append]; rfl⟩

/-- Anything that is no use of the mutex. -/
theorem other (h : Performs p q) {es : List Event} (hlog : r.log = q.log ++ es)
    (hes : es.filter Event.isMutex = []) (hlock : r.succsLock = q.succsLock) :
  Performs p r
  := by
  obtain ⟨steps, rfl⟩ := h
  refine ⟨steps ++ [.elsewhere r.node r.net es], ?_⟩
  rw [List.foldl_append, List.foldl_cons, List.foldl_nil]
  generalize steps.foldl (fun p step => step.run silent p) p = q at hlog hlock
  have hfilter : es.filter (fun e => !e.isMutex) = es := by
    apply List.filter_eq_self.mpr
    intro e he
    simpa using List.filter_eq_nil_iff.mp hes e he
  cases r
  simp only at hlog hlock
  rw [LockStep.run, Process.elsewhere, hfilter, hlog, hlock]

/-- What is done to the table alone. -/
theorem net (h : Performs p q) (net' : NodeNet) :
  Performs p { q with net := net' }
  := h.other (List.append_nil _).symm rfl rfl

theorem emit (h : Performs p q) {e : Event} (he : e.isMutex = false) :
  Performs p (q.emit e)
  := h.other (Process.emit_log q e) (by simp [he]) rfl

theorem withBuffer (h : Performs p q) (connection : ℤ)
    {f : NodeProcess → Fin maxOpenConnections → Bufferevent → NodeProcess}
    (hf : ∀ i b, connection = (i.val : ℤ) → Performs p (f q i b)) :
  Performs p (q.withBuffer connection f)
  := by
  rcases withBuffer_cases q connection with hcrash | ⟨i, b, rfl, hb⟩
  · rw [hcrash]
    exact h.net _
  · rw [withBuffer_of_bev hb]
    exact hf i b rfl

theorem crash (h : Performs p q) :
  Performs p q.crash
  := h.net _

theorem close (h : Performs p q) (connection : ℤ) :
  Performs p (q.close connection)
  := h.net _

theorem free (h : Performs p q) (connection : ℤ) (arg : CbArg) :
  Performs p (q.free connection arg)
  := h.net _

end Performs

/-! ### Handlers -/

section

variable {p q : NodeProcess}

theorem handleSuccRequest_performs (h : Performs p q) (connection : ℤ) (arg : Option CbArg) :
  Performs p (handleSuccRequest q connection arg)
  := by
  unfold handleSuccRequest
  split
  · apply h.withBuffer
    intro i b hi
    dsimp only
    have hread := (h.net q.ask.2.net).net
      ((q.ask.2.setInput i (u32.fill q.ask.1.node.id b.input).2).net)
    have hhandled := hread.emit (e := .handled connection
      (.findSuccessor (u32.fill q.ask.1.node.id b.input).1) b.input.length) rfl
    exact hhandled.operation (.succRequest (u32.fill q.ask.1.node.id b.input).1
      { connection := connection, asker := _ })
  · exact h.crash

theorem handlePredRequest_performs (h : Performs p q) (connection : ℤ) (arg : Option CbArg) :
  Performs p (handlePredRequest q connection arg)
  := by
  unfold handlePredRequest
  split
  · apply h.withBuffer
    intro i b hi
    exact (h.emit (e := .handled connection .predecessor b.input.length) rfl).net _
  · exact h.crash

theorem handleAliveRequest_performs (h : Performs p q) (connection : ℤ) (arg : Option CbArg) :
  Performs p (handleAliveRequest q connection arg)
  := by
  unfold handleAliveRequest
  split
  · apply h.withBuffer
    intro i b hi
    have hask := h.net q.ask.2.net
    exact (hask.emit (e := .handled connection .alive b.input.length) rfl).net _
  · exact h.crash

theorem handleNotifRequest_performs (h : Performs p q) (connection : ℤ) (arg : Option CbArg) :
  Performs p (handleNotifRequest q connection arg)
  := by
  unfold handleNotifRequest
  split
  · apply h.withBuffer
    intro i b hi
    dsimp only
    split
    · have hhandled := (h.net q.ask.2.net).emit (e := .handled connection
        (.notify q.ask.1.node.id q.ask.1.node.port) b.input.length) rfl
      apply Performs.close
      exact (hhandled.close connection).other (List.append_nil _).symm rfl rfl
    · have hread := (h.net q.ask.2.net).net (q.ask.2.setInput i
        (u16.fill q.ask.1.node.port (u32.fill q.ask.1.node.id b.input).2).2).net
      have hhandled := hread.emit (e := .handled connection
        (.notify (u32.fill q.ask.1.node.id b.input).1
          (u16.fill q.ask.1.node.port (u32.fill q.ask.1.node.id b.input).2).1) b.input.length) rfl
      apply Performs.close
      exact hhandled.other (List.append_nil _).symm rfl rfl
  · exact h.crash

theorem handleNodeMessage_performs (h : Performs p q) (connection : ℤ) (arg : Option CbArg) :
  Performs p (handleNodeMessage q connection arg)
  := by
  unfold handleNodeMessage
  split
  · apply Performs.free
    exact h.emit rfl
  · exact h.crash

theorem deferBody_performs (h : Performs p q) (connection : ℤ) (type : UInt8) (len : UInt32) :
  Performs p (deferBody q connection type len)
  := by
  rw [deferBody]
  dsimp only
  split_ifs
  · exact h.net _
  · exact h.net _
  · exact h.net _
  · exact h.net _
  · exact h.net _
  · exact h

theorem handleBody_performs (h : Performs p q) (connection : ℤ) (type : UInt8) (len : UInt32) :
  Performs p (handleBody q connection type len)
  := by
  rw [handleBody]
  split_ifs
  · exact handleSuccRequest_performs h connection _
  · exact handlePredRequest_performs h connection _
  · exact handleAliveRequest_performs h connection _
  · exact handleNotifRequest_performs h connection _
  · exact handleNodeMessage_performs h connection _
  · exact h

theorem incomingReadCb_performs (h : Performs p q) (connection : ℤ) (arg : Option CbArg) :
  Performs p (incomingReadCb q connection arg)
  := by
  unfold incomingReadCb
  split
  · apply h.withBuffer
    intro i b hi
    dsimp only
    have hheader : Performs p (q.ask.2.setInput i (nodeParseMessageHeader q.ask.1.byte b.input).2) :=
      h.net _
    split
    · exact (deferBody_performs hheader connection _ _).net _
    · exact handleBody_performs hheader connection _ _
  · exact h.crash

theorem nodeFoundRemoteCb_performs (h : Performs p q) (connection : ℤ) (arg : Option CbArg) :
  Performs p (nodeFoundRemoteCb q connection arg)
  := by
  unfold nodeFoundRemoteCb
  split
  · rename_i data
    apply h.withBuffer
    intro i b hi
    dsimp only
    have hread := ((h.net q.ask.2.net).emit (e := .replyRead b.serial) rfl).close connection
    exact (hread.free connection (.found data)).operation (.found _)
  · exact h.crash

theorem nodeCheckNodeReply_performs (h : Performs p q) (connection : ℤ) (arg : Option CbArg) :
  Performs p (nodeCheckNodeReply q connection arg)
  := by
  unfold nodeCheckNodeReply
  split
  · rename_i cb
    apply h.withBuffer
    intro i b hi
    split
    · exact h.crash
    · exact ((h.operation (.checked cb _)).close connection).free connection _
  · exact h.crash

/-! ### Whatever happens -/

theorem runDataCb_performs (h : Performs p q) (call : Option (DataCb × ℤ × Option CbArg)) :
  Performs p (runDataCb q call)
  := by
  unfold runDataCb
  split
  · exact nodeFoundRemoteCb_performs h _ _
  · exact nodeCheckNodeReply_performs h _ _
  · exact incomingReadCb_performs h _ _
  · exact handleSuccRequest_performs h _ _
  · exact handlePredRequest_performs h _ _
  · exact handleAliveRequest_performs h _ _
  · exact handleNotifRequest_performs h _ _
  · exact handleNodeMessage_performs h _ _
  · exact h
  · exact h

theorem runEventCb_performs (h : Performs p q) (what : UInt16)
    (call : Option (EventCb × ℤ × Option CbArg)) :
  Performs p (runEventCb q what call)
  := by
  unfold runEventCb
  split
  · exact h
  · unfold nodeNotifyRepEvent
    split
    · split_ifs
      · exact h.close _
      · exact h
    · exact h.crash
  · unfold nodeCheckNodeEvent
    split
    · rename_i cb
      split_ifs
      · exact ((h.operation (.checked cb false)).close _).free _ _
      · exact (h.close _).free _ _
      · exact h
    · exact h.crash
  · unfold incomingEventCb
    split
    · split_ifs
      · exact h.close _
      · exact h
    · exact h.crash
  · unfold incomingEventMsgCb
    split
    · split_ifs
      · exact h.close _
      · exact h
    · exact h.crash
  · exact h
  · exact h

theorem arrive_performs (p : NodeProcess) (i : Fin maxOpenConnections) (bytes : List UInt8) :
  Performs p (arrive p i bytes)
  := by
  unfold arrive
  split
  · rename_i b _
    split
    · exact Performs.refl p
    · have hinput : Performs p (p.setInput i (b.input ++ bytes)) := (Performs.refl p).net _
      dsimp only
      split
      · exact hinput
      · exact runDataCb_performs hinput _
  · exact Performs.refl p

/-- Whatever happens to a process, it performs operations of the node. -/
theorem occur_performs (p : NodeProcess) (o : Occurrence) :
  Performs p (p.occur o)
  := by
  have h := Performs.refl p
  rw [Process.occur]
  split
  · exact h
  · cases o with
    | data i bytes => exact arrive_performs p i bytes
    | drained i =>
      rw [Occurrence.handle]
      split
      · exact runDataCb_performs h _
      · exact h
    | event i what =>
      rw [Occurrence.handle]
      split
      · exact runEventCb_performs h what _
      · exact h
    | accept peer => exact h.net _
    | stabilise => exact h.operation .stabalize
    | fixFingers => exact h.operation .fixFingers
    | checkPred => exact h.operation .checkPredecessor
    | checkSuccs => exact h.operation .checkSuccessors
    | updateSuccs => exact h.operation .updateSuccs
    | setNodeMsgHandler cb cbArg =>
      have hlog : (nodeSetNodeMsgHandler p cb cbArg).log = p.log ++ [.nodeMsgHandler cb cbArg] := rfl
      exact h.other hlog rfl rfl
    | joined arg => exact h.operation (.joined arg)
    | networkCreate arg => exact h.operation (.networkCreate arg)
    | networkJoin node arg => exact h.operation (.networkJoin node arg)
    | findSuccessor id arg => exact h.operation (.findSuccessor id arg)
    | connectAndSend msg readCb eventCb cbArg => exact h.net _
    | send msg connection => exact h.net _
    | create IP port => exact h.net _
    | setReadCb connection cb => exact h.net _
    | setWriteCb connection cb => exact h.net _
    | setEventCb connection cb => exact h.net _
    | setCbArg connection cbArg => exact h.net _
    | close connection => exact h.close _

/-- Operations of the node leave the mutex free. -/
theorem Performs.unlocked {q : NodeProcess} (h : Performs p q) (hp : p.succsLock = false) :
  q.succsLock = false
  := by
  obtain ⟨steps, rfl⟩ := h
  induction steps generalizing p with
  | nil => exact hp
  | cons step steps ih =>
    apply ih
    cases step with
    | operation depth o => exact o.run_unlocks hp depth
    | elsewhere node net events => exact hp

/-- In every run of a process over its connection table, the mutex is free whenever nothing is
being handled. -/
theorem runIo_unlocked (hp : p.succsLock = false) (os : List Occurrence) :
  (p.runIo os).succsLock = false
  := by
  induction os generalizing p with
  | nil => exact hp
  | cons o os ih => exact ih ((occur_performs p o).unlocked hp)

end
