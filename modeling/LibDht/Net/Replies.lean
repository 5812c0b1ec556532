import LibDht.Net.Delivery

/-!
# Replies in segments

A reply is to be read as what it was written, however its bytes are cut into segments. The
readers set no low watermark: they read what the first segment brings, close the connection,
and take for the rest of a node whatever memory held. A reply is read right, whatever was
in memory, exactly when its first segment brings the whole of what its reader looks at.
-/

/-- What a node replies: to a lookup, when it is asked for its predecessor, and to a probe. -/
inductive Reply where
  | successor (n : NodeInfo) (hops : Int16)
  | predecessor (self : NodeSelf)
  | alive (tail : UInt8 × UInt8 × UInt8)

namespace Reply

/-- The bytes of a reply, as its sender writes them. -/
def wire : Reply → List UInt8
  | .successor n hops => successorReply n hops
  | .predecessor self => predecessorReply self
  | .alive tail => aliveReply tail

/-- The node in a reply: the null node for a predecessor that is absent. -/
def node : Reply → NodeInfo
  | .successor n _ => n
  | .predecessor self => if self.hasPred then self.predecessor else nullNode
  | .alive _ => nullNode

/-- The number of bytes up to the end of the node in a reply. -/
def nodeEnd : Reply → ℕ
  | .successor _ _ => 11
  | .predecessor self => if self.hasPred then 11 else 1
  | .alive _ => 1

/-- The number of bytes that the reader of a reply looks at. -/
def needed : Reply → ℕ
  | .successor _ _ => 13
  | .predecessor self => if self.hasPred then 11 else 1
  | .alive _ => 2

end Reply

/-! ### What is handed over -/

/-- The nodes that were handed to callbacks, with the hops they were found in, in order. -/
def nodesHanded (log : List Event) : List (FoundCb × NodeInfo × Int16) :=
  log.filterMap fun
    | .found cb n hops => some (cb, n, hops)
    | _ => none

/-- The results of probes that were handed to callbacks, in order. -/
def probesAnswered (log : List Event) : List (CheckCb × Bool) :=
  log.filterMap fun
    | .checked cb success => some (cb, success)
    | _ => none

@[simp]
theorem probesAnswered_append (l l' : List Event) :
  probesAnswered (l ++ l') = probesAnswered l ++ probesAnswered l'
  := List.filterMap_append ..

/-- The slot `i` of a running process holds a connection with the serial `s`, which is waiting
for a reply that is filled in `data`, and nothing has arrived on it. -/
structure AwaitsNode (p : NodeProcess) (i : Fin maxOpenConnections) (s : ℕ)
    (data : NodeFoundCbData) : Prop where
  bev : ∃ b, Connected p i s b ∧ b.input = [] ∧ b.low = 0
  numbered : p.net.Numbered
  readCb : (p.net.connections i).readCb = some .nodeFoundRemoteCb
  arg : (p.net.connections i).upperCbArg = some (.found data)

/-- The slot `i` of a running process holds a connection with the serial `s`, which is waiting
for the answer to a probe, and nothing has arrived on it. -/
structure AwaitsAlive (p : NodeProcess) (i : Fin maxOpenConnections) (s : ℕ) (cb : CheckCb) :
    Prop where
  bev : ∃ b, Connected p i s b ∧ b.input = [] ∧ b.low = 0
  numbered : p.net.Numbered
  readCb : (p.net.connections i).readCb = some .nodeCheckNodeReply
  arg : (p.net.connections i).upperCbArg = some (.check cb)

/-- However memory is, the reply is handed over once, as what it was written. -/
def DecodesTo (r : Reply) (segments : List (List UInt8)) : Prop :=
  match r with
  | .successor n hops => ∀ p i s data, AwaitsNode p i s data →
    ∃ es, (p.deliver i s segments).log = p.log ++ es ∧ nodesHanded es = [(data.cb, n, hops)]
  | .predecessor self => ∀ p i s data, AwaitsNode p i s data →
    ∃ es hops, (p.deliver i s segments).log = p.log ++ es
      ∧ nodesHanded es = [(data.cb, (Reply.predecessor self).node, hops)]
  | .alive _ => ∀ p i s cb, AwaitsAlive p i s cb →
    ∃ es, (p.deliver i s segments).log = p.log ++ es ∧ probesAnswered es = [(cb, true)]

/-- However memory is, no node is handed over but the one in the reply. -/
def NeverPartial (r : Reply) (segments : List (List UInt8)) : Prop :=
  match r with
  | .alive _ => True
  | _ => ∀ p i s data, AwaitsNode p i s data →
    ∃ es, (p.deliver i s segments).log = p.log ++ es ∧ ∀ x ∈ nodesHanded es, x.2.1 = r.node

/-- A reply stream that is complete is read as what it was written, and one that ends early
leads to no partial node. -/
def ReadsRight (r : Reply) (segments : List (List UInt8)) : Prop :=
  if segments.flatten = r.wire then DecodesTo r segments else NeverPartial r segments

/-- The number of bytes that have to come at once. -/
def Reply.atOnce (r : Reply) (segments : List (List UInt8)) : ℕ :=
  if segments.flatten = r.wire then r.needed else r.nodeEnd

/-! ### The bytes of a node -/

/-- A node that is there whole is read as it was written. -/
theorem readFound_node (old : NodeInfo × Int16) (result : UInt8) (n : NodeInfo) (l : List UInt8) :
  readFound old result (replyYes :: (nodeBytes n ++ l)) = (n, (i16.fill old.2 l).1)
  := by
  rw [readFound, nodeBytes]
  simp only [List.headD_cons, ne_eq, not_true_eq_false, if_false, List.drop_one, List.tail_cons,
    List.append_assoc, u32.fill_encode_append, u16.fill_encode_append]

@[simp]
theorem length_nodeBytes (n : NodeInfo) :
  (nodeBytes n).length = 10
  := by
  simp [nodeBytes, u32, u16]

/-- A node of which some bytes are missing may be read as another one. -/
theorem exists_readFound_node_ne (n : NodeInfo) (result : UInt8) {l : List UInt8}
    (hlen : l.length < 10) :
  ∃ old, (readFound old result (replyYes :: l)).1 ≠ n
  := by
  simp only [readFound_yes]
  rcases lt_or_ge l.length 4 with hid | hid
  · obtain ⟨id, hne⟩ := u32.exists_fill_ne hid n.id
    use (⟨id, 0, 0⟩, 0)
    intro heq
    exact hne (congrArg NodeInfo.id heq)
  · rcases lt_or_ge l.length 8 with hIP | hIP
    · have hdrop : (l.drop 4).length < u32.size := by
        rw [List.length_drop]
        show l.length - 4 < 4
        omega
      obtain ⟨IP, hne⟩ := u32.exists_fill_ne hdrop n.IP
      use (⟨0, IP, 0⟩, 0)
      intro heq
      exact hne (congrArg NodeInfo.IP heq)
    · have hdrop : (l.drop 8).length < u16.size := by
        rw [List.length_drop]
        show l.length - 8 < 2
        omega
      obtain ⟨port, hne⟩ := u16.exists_fill_ne hdrop n.port
      use (⟨0, 0, port⟩, 0)
      intro heq
      exact hne (congrArg NodeInfo.port heq)

/-- Hops of which a byte is missing may be read as others. -/
theorem exists_readFound_hops_ne (hops : Int16) (result : UInt8) {l : List UInt8}
    (hlen : l.length < 12) :
  ∃ old, (readFound old result (replyYes :: l)).2 ≠ hops
  := by
  simp only [readFound_yes]
  have hdrop : (l.drop 10).length < i16.size := by
    rw [List.length_drop]
    show l.length - 10 < 2
    omega
  obtain ⟨h, hne⟩ := i16.exists_fill_ne hdrop hops
  exact ⟨(nullNode, h), hne⟩

/-- The node in what is there of a reply is read right, whatever was in memory, exactly when
it is there whole. -/
theorem readFound_node_iff (n : NodeInfo) (tail : List UInt8) {buf rest : List UInt8}
    (hbuf : buf ++ rest = replyYes :: (nodeBytes n ++ tail)) (hlen : 1 ≤ buf.length) :
  (∀ old, (readFound old 0 buf).1 = n) ↔ 11 ≤ buf.length
  := by
  obtain ⟨l, rfl, hl⟩ : ∃ l, buf = replyYes :: l ∧ l ++ rest = nodeBytes n ++ tail := by
    cases buf with
    | nil => simp at hlen
    | cons x l =>
      obtain ⟨rfl, hl⟩ := List.cons.inj hbuf
      exact ⟨l, rfl, hl⟩
  rw [List.length_cons]
  constructor
  · intro hright
    by_contra hfew
    obtain ⟨old, hne⟩ := exists_readFound_node_ne n 0 (l := l) (by omega)
    exact hne (hright old)
  · intro hmany old
    rcases List.append_eq_append_iff.mp hl with ⟨l', hnode, -⟩ | ⟨l', rfl, -⟩
    · have hshort := congrArg List.length hnode
      rw [length_nodeBytes, List.length_append] at hshort
      have hnil : l' = [] := by
        apply List.length_eq_zero_iff.mp
        omega
      rw [hnil, List.append_nil] at hnode
      rw [← hnode, ← List.append_nil (nodeBytes n), readFound_node]
    · rw [readFound_node]

/-- All that there is of a reply to a lookup is read right, whatever was in memory, exactly
when it is all. -/
theorem readFound_successor_iff (n : NodeInfo) (hops : Int16) {buf rest : List UInt8}
    (hbuf : buf ++ rest = successorReply n hops) (hlen : 1 ≤ buf.length) :
  (∀ old, readFound old 0 buf = (n, hops)) ↔ 13 ≤ buf.length
  := by
  have hwire : (successorReply n hops).length = 13 := by
    simp [successorReply, i16.length_encode]
    rfl
  constructor
  · intro hright
    by_contra hfew
    have hnode := (readFound_node_iff n _ hbuf hlen).mp
      (fun old => congrArg Prod.fst (hright old))
    cases buf with
    | nil => simp at hlen
    | cons x l =>
      obtain ⟨rfl, -⟩ := List.cons.inj hbuf
      rw [List.length_cons] at hfew
      obtain ⟨old, hne⟩ := exists_readFound_hops_ne hops 0 (l := l) (by omega)
      exact hne (congrArg Prod.snd (hright old))
  · intro hmany old
    have hall := congrArg List.length hbuf
    rw [List.length_append, hwire] at hall
    have hnil : rest = [] := by
      apply List.length_eq_zero_iff.mp
      omega
    rw [hnil, List.append_nil] at hbuf
    rw [hbuf, successorReply, readFound_node, i16.fill_encode]

/-! ### The readers -/

section

variable {p : NodeProcess} {i : Fin maxOpenConnections} {s : ℕ}

theorem nodesHanded_eq_nil {l : List Event} (h : ∀ e ∈ l, e.Internal false) :
  nodesHanded l = []
  := by
  apply List.filterMap_eq_nil_iff.mpr
  intro e he
  cases e with
  | found cb n hops => exact absurd (h _ he) Bool.false_ne_true
  | _ => rfl

theorem nodesHanded_append (l l' : List Event) :
  nodesHanded (l ++ l') = nodesHanded l ++ nodesHanded l'
  := List.filterMap_append ..

/-- Nothing is handed over but what is found first. -/
theorem nodesHanded_found {l : List Event} (h : ∀ e ∈ l, e.Internal false) (cb : FoundCb)
    (n : NodeInfo) (hops : Int16) :
  nodesHanded (.found cb n hops :: l) = [(cb, n, hops)]
  := congrArg ((cb, n, hops) :: ·) (nodesHanded_eq_nil h)

/-- A reader is called with what the first segment brings that is not empty. What comes after
that is lost when the reader closes the connection for good. -/
theorem deliver_first {b : Bufferevent} (h : Connected p i s b) (hinput : b.input = [])
    (hlow : b.low = 0) (segments : List (List UInt8)) :
  p.deliver i s segments
    = match collect 1 [] segments with
      | some (buf, rest) => (readReady (p.setInput i buf) i).deliver i s rest
      | none => p.setInput i segments.flatten
  := by
  have hlow' : max b.low 1 = 1 := by rw [hlow]; rfl
  have hwait : b.input.length < max b.low 1 := by
    rw [hinput, hlow']
    exact Nat.one_pos
  have hdeliver := deliver_of_connected h hwait segments
  rw [hlow', hinput] at hdeliver
  exact hdeliver

theorem deliver_node {data : NodeFoundCbData} (h : AwaitsNode p i s data)
    {segments : List (List UInt8)} {buf : List UInt8} {rest : List (List UInt8)}
    (hcollect : collect 1 [] segments = some (buf, rest)) :
  ∃ es, (p.deliver i s segments).log = p.log ++ es
    ∧ nodesHanded es
      = [(data.cb, readFound (data.node, data.hops) (p.net.outcome p.net.calls).byte buf)]
  := by
  obtain ⟨b, hconn, hinput, hlow⟩ := h.bev
  rw [deliver_first hconn hinput hlow, hcollect]
  dsimp only
  generalize hq : p.setInput i buf = q
  have hbev : (q.net.connections i).bev = some { b with input := buf } := by
    rw [← hq]
    exact setInput_bev hconn.bev _
  have hready : readReady q i = nodeFoundRemoteCb q i.val (some (.found data)) := by
    rw [← hq, readReady_setInput h.readCb, h.arg, runDataCb]
  have hnum : q.net.Numbered := by
    rw [← hq]
    exact ((Moves.refl (R := fun _ => True) p).setInput i buf).net.numbered h.numbered
  obtain ⟨⟨es, hes, hint⟩, -, hgone⟩ :=
    nodeFoundRemoteCb_spec (R := fun _ => True) hbev data
  have hserial : NodeNet.serialIn (readReady q i).net i ≠ some s := by
    rw [hready, ← hconn.serial]
    exact hgone hnum i
  rw [deliver_closed hserial, hready, hes, ← hq]
  exact ⟨_, rfl, nodesHanded_found hint _ _ _⟩

/-- Nothing is handed over when no segment brings anything. -/
theorem deliver_nothing {b : Bufferevent} (h : Connected p i s b) (hinput : b.input = [])
    (hlow : b.low = 0) {segments : List (List UInt8)} (hcollect : collect 1 [] segments = none) :
  (p.deliver i s segments).log = p.log
  := by
  rw [deliver_first h hinput hlow, hcollect]
  rfl

/-- A process that has crashed does nothing. -/
theorem deliver_crashed (h : p.net.crashed = true) (segments : List (List UInt8)) :
  p.deliver i s segments = p
  := by
  induction segments with
  | nil => rfl
  | cons l ls ih =>
    have hstep : (if p.net.serialAt i.val = some s then arrive p i l else p) = p := by
      split
      · rw [arrive]
        split
        · rw [h, Bool.true_or, Bool.true_or, if_pos rfl]
        · rfl
      · rfl
    rw [Process.deliver]
    rw [List.foldl_cons, hstep]
    exact ih

/-- The result of a probe is handed over once. -/
theorem nodeCheckResult_log (p : NodeProcess) (cb : CheckCb) (success : Bool) :
  ∃ es, (nodeCheckResult p cb success).log = p.log ++ es ∧ probesAnswered es = [(cb, success)]
  := by
  unfold nodeCheckResult
  cases cb with
  | predResult =>
    refine ⟨[.checked .predResult success], ?_, rfl⟩
    dsimp only
    split <;> rfl
  | succResult sn =>
    dsimp only
    split
    · refine ⟨[.checked (.succResult sn) success, .succIndex sn], ?_, rfl⟩
      rw [Process.setSucc_log, Process.emit_log, List.append_assoc]
      rfl
    · exact ⟨[.checked (.succResult sn) success], rfl, rfl⟩

theorem deliver_alive {cb : CheckCb} (h : AwaitsAlive p i s cb) {segments : List (List UInt8)}
    {buf : List UInt8} {rest : List (List UInt8)}
    (hcollect : collect 1 [] segments = some (buf, rest)) :
  ∃ es, (p.deliver i s segments).log = p.log ++ es
    ∧ probesAnswered es
      = ((readln buf).map fun token => (cb, token.headD 0 == replyYes)).toList
  := by
  obtain ⟨b, hconn, hinput, hlow⟩ := h.bev
  rw [deliver_first hconn hinput hlow, hcollect]
  dsimp only
  generalize hq : p.setInput i buf = q
  have hbev : (q.net.connections i).bev = some { b with input := buf } := by
    rw [← hq]
    exact setInput_bev hconn.bev _
  have hlog : q.log = p.log := by
    rw [← hq]
    rfl
  have hready : readReady q i = nodeCheckNodeReply q i.val (some (.check cb)) := by
    rw [← hq, readReady_setInput h.readCb, h.arg, runDataCb]
  rw [hready, nodeCheckNodeReply, withBuffer_of_bev hbev]
  dsimp only
  cases hline : readln buf with
  | none =>
    rw [deliver_crashed rfl]
    exact ⟨[], by simpa using hlog, rfl⟩
  | some token =>
    dsimp only
    obtain ⟨es, hes, hanswered⟩ := nodeCheckResult_log q cb (token.headD 0 == replyYes)
    rw [deliver_closed]
    · exact ⟨es, by rw [Process.free_log, Process.close_log, hes, hlog], hanswered⟩
    · rw [serialIn_close_free]
      exact (Option.some_ne_none s).symm

/-! ### Decoding undoes encoding -/

/-- A connection on which nothing has arrived. -/
def pendingBev : Bufferevent :=
  { serial := 0, input := [], output := [], low := 0, enabled := true, peer := 1 }

/-- A table with one connection. -/
def pendingNet (readCb : DataCb) (arg : CbArg) : NodeNet :=
  let table : NodeNet := NetServer.empty fun _ => .fine
  { table with
    connections := Function.update table.connections 0
      { table.connections 0 with
        bev := some pendingBev, readCb := some readCb, upperCbArg := some arg }
    nextSerial := 1 }

/-- A process with one connection, that waits for a reply. -/
def pending (readCb : DataCb) (arg : CbArg) : NodeProcess :=
  { node := .blank, net := pendingNet readCb arg, succsLock := false, log := [] }

theorem numbered_pending (readCb : DataCb) (arg : CbArg) :
  (pending readCb arg).net.Numbered
  := by
  have hserial : ∀ i s, (pending readCb arg).net.serialIn i = some s → i = 0 ∧ s = 0 := by
    intro i s hs
    by_cases hi : i = 0
    · subst hi
      simp [NodeNet.serialIn, pending, pendingNet, pendingBev] at hs
      exact ⟨rfl, hs.symm⟩
    · simp [NodeNet.serialIn, pending, pendingNet, Function.update_of_ne hi, NetServer.empty] at hs
  constructor
  · intro i s hs
    obtain ⟨-, rfl⟩ := hserial i s hs
    exact Nat.one_pos
  · intro i j s hi hj
    rw [(hserial i s hi).1, (hserial j s hj).1]

theorem awaitsNode_pending (data : NodeFoundCbData) :
  AwaitsNode (pending .nodeFoundRemoteCb (.found data)) 0 0 data
  := by
  refine ⟨⟨pendingBev, ⟨rfl, ?_, rfl, rfl⟩, rfl, rfl⟩, numbered_pending _ _, ?_, ?_⟩ <;>
    simp [pending, pendingNet]

theorem awaitsAlive_pending (cb : CheckCb) :
  AwaitsAlive (pending .nodeCheckNodeReply (.check cb)) 0 0 cb
  := by
  refine ⟨⟨pendingBev, ⟨rfl, ?_, rfl, rfl⟩, rfl, rfl⟩, numbered_pending _ _, ?_, ?_⟩ <;>
    simp [pending, pendingNet]

/-- What is handed over of a stream whose first segment brings `buf`, when memory held
`old`. -/
theorem deliver_pending (old : NodeInfo × Int16) {segments : List (List UInt8)} {buf : List UInt8}
    {rest : List (List UInt8)} (hcollect : collect 1 [] segments = some (buf, rest)) :
  let data := { cb := .app 0, node := old.1, hops := old.2 }
  let p := pending .nodeFoundRemoteCb (.found data)
  ∃ es, (p.deliver 0 0 segments).log = p.log ++ es
    ∧ nodesHanded es = [(.app 0, readFound old 0 buf)]
  := deliver_node (awaitsNode_pending _) hcollect

/-- The first segment that is not empty has the byte that the reader starts with. -/
theorem readFound_zero {buf : List UInt8} (hlen : 1 ≤ buf.length) (old : NodeInfo × Int16)
    (result : UInt8) :
  readFound old result buf = readFound old 0 buf
  := by
  cases buf with
  | nil => simp at hlen
  | cons x l => rfl

/-- The bytes of a stream that a reader has are the first ones of the stream. -/
theorem collect_prefix {segments : List (List UInt8)} {buf : List UInt8}
    {rest : List (List UInt8)} (hcollect : collect 1 [] segments = some (buf, rest))
    {wire : List UInt8} (hwire : segments.flatten <+: wire) :
  1 ≤ buf.length ∧ ∃ missing, buf ++ missing = wire
  := by
  obtain ⟨hlen, hall⟩ := collect_eq_some hcollect
  obtain ⟨cut, hcut⟩ := hwire
  refine ⟨hlen, rest.flatten ++ cut, ?_⟩
  rw [← List.append_assoc, hall, List.nil_append, hcut]

theorem prefix_of_eq {l l' : List UInt8} (h : l = l') :
  l <+: l'
  := h ▸ List.prefix_rfl

/-- A stream that has bytes is read. -/
theorem exists_collect {segments : List (List UInt8)} (h : segments.flatten ≠ []) :
  ∃ buf rest, collect 1 [] segments = some (buf, rest)
  := by
  cases hcollect : collect 1 [] segments with
  | none =>
    have hfew := collect_eq_none Nat.one_pos hcollect segments.length
    rw [List.take_length, List.nil_append] at hfew
    exact absurd (List.length_eq_zero_iff.mp (Nat.lt_one_iff.mp hfew)) h
  | some result => exact ⟨result.1, result.2, rfl⟩

/-- The reply to a lookup is read as what it was written exactly when its first segment brings
all of it. -/
theorem decodesTo_successor_iff (n : NodeInfo) (hops : Int16) {segments : List (List UInt8)}
    (hsegments : segments.flatten = successorReply n hops) :
  DecodesTo (.successor n hops) segments ↔ NoCut 1 13 [] segments
  := by
  have hne : segments.flatten ≠ [] := by simp [hsegments, successorReply]
  obtain ⟨buf, rest, hcollect⟩ := exists_collect hne
  obtain ⟨hlen, missing, hall⟩ := collect_prefix hcollect (prefix_of_eq hsegments)
  rw [← le_length_collect_iff Nat.one_pos hcollect, ← readFound_successor_iff n hops hall hlen]
  constructor
  · intro h old
    obtain ⟨es, hes, hhanded⟩ := deliver_pending old hcollect
    obtain ⟨es', hes', hhanded'⟩ := h _ _ _ _ (awaitsNode_pending _)
    rw [hes] at hes'
    rw [← List.append_cancel_left hes', hhanded] at hhanded'
    exact (Prod.mk.inj (List.cons.inj hhanded').1).2
  · intro h p i s data hawaits
    obtain ⟨es, hes, hhanded⟩ := deliver_node hawaits hcollect
    rw [readFound_zero hlen, h] at hhanded
    exact ⟨es, hes, hhanded⟩

/-- A node in a reply is read as `n`, whatever was in memory, exactly when every callback is
handed `n`. -/
theorem handed_iff {segments : List (List UInt8)} {buf : List UInt8} {rest : List (List UInt8)}
    (hcollect : collect 1 [] segments = some (buf, rest)) (hlen : 1 ≤ buf.length) (n : NodeInfo) :
  (∀ p i s data, AwaitsNode p i s data →
    ∃ es hops, (p.deliver i s segments).log = p.log ++ es
      ∧ nodesHanded es = [(data.cb, n, hops)])
    ↔ ∀ old, (readFound old 0 buf).1 = n
  := by
  constructor
  · intro h old
    obtain ⟨es, hes, hhanded⟩ := deliver_pending old hcollect
    obtain ⟨es', hops, hes', hhanded'⟩ := h _ _ _ _ (awaitsNode_pending _)
    rw [hes] at hes'
    rw [← List.append_cancel_left hes', hhanded] at hhanded'
    have hread := (Prod.mk.inj (List.cons.inj hhanded').1).2
    exact congrArg Prod.fst hread
  · intro h p i s data hawaits
    obtain ⟨es, hes, hhanded⟩ := deliver_node hawaits hcollect
    rw [readFound_zero hlen] at hhanded
    refine ⟨es, (readFound (data.node, data.hops) 0 buf).2, hes, ?_⟩
    rw [hhanded, ← h (data.node, data.hops)]

/-- The node in the reply about a predecessor is read right exactly when its first segment
brings all of it. That there is none is always read right. -/
theorem readFound_predecessor_iff (self : NodeSelf) {buf missing : List UInt8}
    (hbuf : buf ++ missing = predecessorReply self) (hlen : 1 ≤ buf.length) :
  (∀ old, (readFound old 0 buf).1 = (Reply.predecessor self).node)
    ↔ (Reply.predecessor self).nodeEnd ≤ buf.length
  := by
  unfold predecessorReply at hbuf
  unfold Reply.node Reply.nodeEnd
  dsimp only
  split at hbuf
  · rename_i hpred
    rw [if_pos hpred, if_pos hpred]
    rw [← List.append_nil (nodeBytes self.predecessor)] at hbuf
    exact readFound_node_iff _ [] hbuf hlen
  · rename_i hpred
    rw [if_neg hpred, if_neg hpred]
    cases buf with
    | nil => simp at hlen
    | cons x l =>
      obtain ⟨rfl, -⟩ := List.cons.inj hbuf
      exact ⟨fun _ => hlen, fun _ old => rfl⟩

theorem decodesTo_predecessor_iff (self : NodeSelf) {segments : List (List UInt8)}
    (hsegments : segments.flatten = predecessorReply self) :
  DecodesTo (.predecessor self) segments ↔ NoCut 1 (Reply.predecessor self).needed [] segments
  := by
  have hne : segments.flatten ≠ [] := by
    rw [hsegments, predecessorReply]
    split <;> exact List.cons_ne_nil _ _
  obtain ⟨buf, rest, hcollect⟩ := exists_collect hne
  obtain ⟨hlen, missing, hall⟩ := collect_prefix hcollect (prefix_of_eq hsegments)
  rw [← le_length_collect_iff Nat.one_pos hcollect]
  exact (handed_iff hcollect hlen _).trans (readFound_predecessor_iff self hall hlen)

/-- The answer to a probe is read exactly when its first segment brings the line. -/
theorem decodesTo_alive_iff (tail : UInt8 × UInt8 × UInt8) {segments : List (List UInt8)}
    (hsegments : segments.flatten = aliveReply tail) :
  DecodesTo (.alive tail) segments ↔ NoCut 1 2 [] segments
  := by
  have hne : segments.flatten ≠ [] := by simp [hsegments, aliveReply]
  obtain ⟨buf, rest, hcollect⟩ := exists_collect hne
  obtain ⟨hlen, missing, hall⟩ := collect_prefix hcollect (prefix_of_eq hsegments)
  rw [← le_length_collect_iff Nat.one_pos hcollect]
  obtain ⟨l, rfl, hl⟩ : ∃ l, buf = replyYes :: l
      ∧ l ++ missing = [lineFeed, 0, tail.1, tail.2.1, tail.2.2] := by
    cases buf with
    | nil => simp at hlen
    | cons x l =>
      obtain ⟨rfl, hl⟩ := List.cons.inj hall
      exact ⟨l, rfl, hl⟩
  cases l with
  | nil =>
    constructor
    · intro h
      obtain ⟨es, hes, hanswered⟩ := deliver_alive (awaitsAlive_pending .predResult) hcollect
      obtain ⟨es', hes', hanswered'⟩ := h _ _ _ _ (awaitsAlive_pending .predResult)
      rw [hes] at hes'
      rw [← List.append_cancel_left hes', hanswered] at hanswered'
      cases hanswered'
    · intro h
      simp at h
  | cons y l =>
    obtain ⟨rfl, -⟩ := List.cons.inj hl
    have hline : readln (replyYes :: lineFeed :: l) = some [replyYes] := by
      rw [readln, if_pos (by simp)]
      rfl
    constructor
    · intro h
      simp
    · intro h p i s cb hawaits
      obtain ⟨es, hes, hanswered⟩ := deliver_alive hawaits hcollect
      rw [hline] at hanswered
      exact ⟨es, hes, hanswered⟩

/-- Nothing that is read of a stream that ends early is another node exactly when the node
comes at once. -/
theorem neverPartial_iff_handed {segments : List (List UInt8)} {buf : List UInt8}
    {rest : List (List UInt8)} (hcollect : collect 1 [] segments = some (buf, rest))
    (hlen : 1 ≤ buf.length) (n : NodeInfo) :
  (∀ p i s data, AwaitsNode p i s data →
    ∃ es, (p.deliver i s segments).log = p.log ++ es ∧ ∀ x ∈ nodesHanded es, x.2.1 = n)
    ↔ ∀ old, (readFound old 0 buf).1 = n
  := by
  rw [← handed_iff hcollect hlen]
  constructor
  · intro h p i s data hawaits
    obtain ⟨es, hes, hhanded⟩ := deliver_node hawaits hcollect
    obtain ⟨es', hes', hnever⟩ := h p i s data hawaits
    rw [hes] at hes'
    rw [← List.append_cancel_left hes', hhanded] at hnever
    refine ⟨es, (readFound (data.node, data.hops) (p.net.outcome p.net.calls).byte buf).2, hes, ?_⟩
    rw [hhanded, ← hnever _ List.mem_cons_self]
  · intro h p i s data hawaits
    obtain ⟨es, hops, hes, hhanded⟩ := h p i s data hawaits
    refine ⟨es, hes, ?_⟩
    rw [hhanded]
    simp

/-- A stream that ends early leads to no partial node exactly when the node comes at once. -/
theorem neverPartial_iff {r : Reply} {segments : List (List UInt8)}
    (hsegments : segments.flatten <+: r.wire) :
  NeverPartial r segments ↔ NoCut 1 r.nodeEnd [] segments
  := by
  cases hcollect : collect 1 [] segments with
  | none =>
    have hcut : NoCut 1 r.nodeEnd [] segments :=
      fun k => Or.inl (collect_eq_none Nat.one_pos hcollect k)
    have hnever : NeverPartial r segments := by
      have hnothing : ∀ p i s data, AwaitsNode p i s data →
          ∃ es, (p.deliver i s segments).log = p.log ++ es
            ∧ ∀ x ∈ nodesHanded es, x.2.1 = r.node := by
        intro p i s data hawaits
        obtain ⟨b, hconn, hinput, hlow⟩ := hawaits.bev
        refine ⟨[], ?_, by simp [nodesHanded]⟩
        rw [deliver_nothing hconn hinput hlow hcollect, List.append_nil]
      cases r with
      | alive tail => trivial
      | _ => exact hnothing
    exact ⟨fun _ => hcut, fun _ => hnever⟩
  | some result =>
    obtain ⟨buf, rest⟩ := result
    obtain ⟨hlen, missing, hall⟩ := collect_prefix hcollect hsegments
    rw [← le_length_collect_iff Nat.one_pos hcollect]
    cases r with
    | successor n hops =>
      exact (neverPartial_iff_handed hcollect hlen _).trans (readFound_node_iff n _ hall hlen)
    | predecessor self =>
      exact (neverPartial_iff_handed hcollect hlen _).trans
        (readFound_predecessor_iff self hall hlen)
    | alive tail => exact ⟨fun _ => hlen, fun _ => trivial⟩

/-- A reply is read right, whatever was in memory, exactly when the first segment that is not
empty brings all that its reader looks at. -/
theorem readsRight_iff {r : Reply} {segments : List (List UInt8)}
    (hsegments : segments.flatten <+: r.wire) :
  ReadsRight r segments ↔ NoCut 1 (r.atOnce segments) [] segments
  := by
  rw [ReadsRight, Reply.atOnce]
  split
  · rename_i hwhole
    cases r with
    | successor n hops => exact decodesTo_successor_iff n hops hwhole
    | predecessor self => exact decodesTo_predecessor_iff self hwhole
    | alive tail => exact decodesTo_alive_iff tail hwhole
  · exact neverPartial_iff hsegments

/-- A reply to a lookup that arrives in two segments. -/
def cutReply : List (List UInt8) :=
  [(successorReply ⟨1, 2, 3⟩ 4).take 4, (successorReply ⟨1, 2, 3⟩ 4).drop 4]

theorem flatten_cutReply :
  cutReply.flatten = successorReply ⟨1, 2, 3⟩ 4
  := by
  simp [cutReply]

theorem readsRight_iff_cutReply :
  ReadsRight (.successor ⟨1, 2, 3⟩ 4) cutReply
    ↔ NoCut 1 ((Reply.successor ⟨1, 2, 3⟩ 4).atOnce cutReply) [] cutReply
  := readsRight_iff (prefix_of_eq flatten_cutReply)

/-- What memory held is handed over for the rest of a node. -/
theorem reply_read_in_part :
  ¬ ∀ (r : Reply) (segments : List (List UInt8)), segments.flatten <+: r.wire →
    ReadsRight r segments
  := by
  intro h
  have hright := h (.successor ⟨1, 2, 3⟩ 4) cutReply (prefix_of_eq flatten_cutReply)
  unfold ReadsRight at hright
  rw [if_pos (by exact flatten_cutReply), decodesTo_successor_iff _ _ flatten_cutReply] at hright
  have hcut := hright 1
  revert hcut
  decide

end
