import LibDht.Net.Moves
import LibDht.Wire.Segments

/-!
# The arrival of a stream

A connection that waits collects the segments that arrive on it, and calls its read
callback once it has as many bytes as its low watermark. What arrives after that is up to
the state that the callback leaves: nothing does when the connection is closed.
-/

section

variable {p : NodeProcess} {i : Fin maxOpenConnections} {s : ℕ} {b : Bufferevent}

/-- The connection with the serial `s` is in the slot `i` of a running process, and bytes may
arrive on it. -/
structure Connected (p : NodeProcess) (i : Fin maxOpenConnections) (s : ℕ) (b : Bufferevent) :
    Prop where
  running : p.net.crashed = false
  bev : (p.net.connections i).bev = some b
  serial : b.serial = s
  enabled : b.enabled = true

/-- The call of the read callback of the slot `i`. -/
def readReady (p : NodeProcess) (i : Fin maxOpenConnections) : NodeProcess :=
  runDataCb p (netConnectionReadCb p.net i.val)

/-! ### Input buffers -/

theorem setInput_bev (hb : (p.net.connections i).bev = some b) (l : List UInt8) :
  ((p.setInput i l).net.connections i).bev = some { b with input := l }
  := by
  rw [Process.setInput_connections_self, hb]
  rfl

theorem setInput_self (hb : (p.net.connections i).bev = some b) :
  p.setInput i b.input = p
  := by
  have hbev : (p.net.connections i).bev.map (fun b' => { b' with input := b.input })
      = (p.net.connections i).bev := by
    rw [hb]
    rfl
  have hconn : Function.update p.net.connections i (p.net.connections i) = p.net.connections :=
    Function.update_eq_self i p.net.connections
  unfold Process.setInput NetServer.modifyBev NetServer.modify
  dsimp only
  rw [hbev, hconn]

theorem setInput_setInput (l l' : List UInt8) :
  (p.setInput i l).setInput i l' = p.setInput i l'
  := by
  unfold Process.setInput NetServer.modifyBev NetServer.modify
  simp [Function.comp_def]

theorem setInput_bev_of_ne {j : Fin maxOpenConnections} (hj : j ≠ i) (l : List UInt8) :
  ((p.setInput i l).net.connections j).bev = (p.net.connections j).bev
  := by
  simp [Process.setInput, NetServer.modifyBev, NetServer.modify, Function.update_of_ne hj]

/-- The read callback of a slot is called with what is in the input buffer. -/
theorem readReady_setInput {cb : DataCb} (hcb : (p.net.connections i).readCb = some cb)
    (l : List UInt8) :
  readReady (p.setInput i l) i
    = runDataCb (p.setInput i l) (some (cb, i.val, (p.net.connections i).upperCbArg))
  := by
  rw [readReady, netConnectionReadCb_coe, Process.setInput_connections_self, hcb, Option.map_some]

theorem Connected.setInput (h : Connected p i s b) (l : List UInt8) :
  Connected (p.setInput i l) i s { b with input := l }
  := ⟨h.running, setInput_bev h.bev l, h.serial, h.enabled⟩

theorem Connected.serialAt (h : Connected p i s b) :
  p.net.serialAt i.val = some s
  := by
  rw [NetServer.serialAt_coe, NodeNet.serialIn, h.bev, Option.map_some, h.serial]

/-! ### Arrivals -/

theorem arrive_nil (p : NodeProcess) (i : Fin maxOpenConnections) :
  arrive p i [] = p
  := by
  rw [arrive]
  split
  · simp
  · rfl

/-- Nothing arrives on a connection whose socket is not connected. -/
theorem arrive_disabled (h : p.net.isEnabled i = false) (bytes : List UInt8) :
  arrive p i bytes = p
  := by
  rw [arrive]
  split
  · rename_i b hb
    rw [NodeNet.isEnabled_of_bev hb] at h
    simp [h]
  · rfl

/-- Bytes arrive on a connection: they are collected, and the callback is called when there
are enough. -/
theorem arrive_of_connected (h : Connected p i s b) (hwait : b.input.length < max b.low 1)
    (bytes : List UInt8) :
  arrive p i bytes
    = if max b.low 1 ≤ (b.input ++ bytes).length then
        readReady (p.setInput i (b.input ++ bytes)) i
      else p.setInput i (b.input ++ bytes)
  := by
  unfold arrive
  rw [h.bev]
  simp only [h.running, h.enabled, Bool.not_true, Bool.or_self, Bool.false_or]
  cases bytes with
  | nil =>
    have hfew : ¬ max b.low 1 ≤ b.input.length := not_le.mpr hwait
    simp [hfew, setInput_self h.bev]
  | cons x xs =>
    have hpos : 1 ≤ (b.input ++ x :: xs).length := by
      rw [List.length_append, List.length_cons]
      omega
    simp only [List.isEmpty_cons, Bool.false_eq_true, if_false]
    by_cases hlow : (b.input ++ x :: xs).length < b.low
    · rw [if_pos hlow, if_neg (by omega)]
    · rw [if_neg hlow, if_pos (by omega)]
      rfl

/-- Empty segments bring nothing. -/
theorem deliver_nil {segments : List (List UInt8)} (h : ∀ l ∈ segments, l = []) :
  p.deliver i s segments = p
  := by
  induction segments with
  | nil => rfl
  | cons l ls ih =>
    have hl := h l List.mem_cons_self
    subst hl
    have hstep : (if p.net.serialAt i.val = some s then arrive p i [] else p) = p := by
      rw [arrive_nil, ite_self]
    rw [Process.deliver]
    rw [List.foldl_cons, hstep]
    exact ih (fun l' hl' => h l' (List.mem_cons_of_mem _ hl'))

/-- Segments for a connection that is closed are lost. -/
theorem deliver_closed (h : NodeNet.serialIn p.net i ≠ some s) (segments : List (List UInt8)) :
  p.deliver i s segments = p
  := by
  induction segments with
  | nil => rfl
  | cons l ls ih =>
    have hstep : (if p.net.serialAt i.val = some s then arrive p i l else p) = p := by
      rw [NetServer.serialAt_coe, if_neg h]
    unfold Process.deliver
    rw [List.foldl_cons, hstep]
    exact ih

/-- The arrival of a stream: the callback is called with what has been collected, and the
segments that are left arrive after that. -/
theorem deliver_of_connected (h : Connected p i s b) (hwait : b.input.length < max b.low 1)
    (segments : List (List UInt8)) :
  p.deliver i s segments
    = match collect (max b.low 1) b.input segments with
      | some (buf, rest) => (readReady (p.setInput i buf) i).deliver i s rest
      | none => p.setInput i (b.input ++ segments.flatten)
  := by
  induction segments generalizing p b with
  | nil => simp [collect, Process.deliver, setInput_self h.bev]
  | cons l ls ih =>
    have hstep : p.deliver i s (l :: ls) = (arrive p i l).deliver i s ls := by
      unfold Process.deliver
      rw [List.foldl_cons, if_pos h.serialAt]
    rw [hstep, arrive_of_connected h hwait, collect]
    split
    · rfl
    · rename_i hfew
      have hnext := ih (h.setInput (b.input ++ l)) (not_le.mp hfew)
      rw [hnext]
      simp only [setInput_setInput, List.flatten_cons, List.append_assoc]

/-- A stream only adds to the log. -/
theorem deliver_log (p : NodeProcess) (i : Fin maxOpenConnections) (s : ℕ)
    (segments : List (List UInt8)) :
  ∃ es, (p.deliver i s segments).log = p.log ++ es
  := by
  induction segments generalizing p with
  | nil => exact ⟨[], by simp [Process.deliver]⟩
  | cons l ls ih =>
    have hstep : ∃ es, (if p.net.serialAt i.val = some s then arrive p i l else p).log
        = p.log ++ es := by
      split
      · obtain ⟨es, hes, -⟩ := (arrive_happens (R := fun _ => True) (fun _ _ => trivial) i l).log
        exact ⟨es, hes⟩
      · exact ⟨[], by simp⟩
    obtain ⟨es, hes⟩ := hstep
    obtain ⟨es', hes'⟩ := ih (if p.net.serialAt i.val = some s then arrive p i l else p)
    refine ⟨es ++ es', ?_⟩
    unfold Process.deliver at hes' ⊢
    rw [List.foldl_cons, hes', hes, List.append_assoc]

end
