import LibDht.Node.Outbox

/-!
# The mutex of the successor array

`succs_lock` is taken and released by one thread, and not recursive. Every operation of a
node that takes it releases it before it ends, but `node_find_successor` calls the callback
of a lookup while it holds the mutex, if the first successor in use is the answer. And when
it is asked for the node's own identifier it releases a mutex that it has not taken. The
mutex is used as it should be exactly when no lookup is for the node's own identifier, and
no callback that is called under the mutex starts a lookup.
-/

/-! ### Callbacks that start lookups -/

section

variable {ν : Type} [Remote ν]

/-- `node_find_successor` from `int succ_num` on. What handing a node to a callback does is a
parameter. -/
def nodeFindSuccessorRest (found : Process ν → NodeFoundCbData → Process ν) (p : Process ν)
    (id : HashType) (cb : FoundCb) : ℤ × Process ν :=
  let succNum := nodeFirstAliveSucc p.node
  let p := p.touch succNum
  let succ := p.node.successorAt succNum
  if nodeIdInRange id p.node.self.id succ.id || nodeIdCompare p.node.self.id succ.id == 0 then
    let p := found p { cb := cb, node := succ, hops := 0 }
    (0, p.unlock)
  else
    let p := p.unlock
    let n := nodeClosestPrecedingNode p.node id
    let p :=
      if (closestFinger p.node id).isNone then p.touch (nodeFirstAliveSucc p.node) else p
    nodeFindSuccessorRemote p n id cb

/-- `node_find_successor`, where what handing a node to a callback does is a parameter. -/
def nodeFindSuccessorWith (found : Process ν → NodeFoundCbData → Process ν) (p : Process ν)
    (id : HashType) (cb : FoundCb) : ℤ × Process ν :=
  let own := nodeIdCompare p.node.self.id id == 0
  let p := if own then found p { cb := cb, node := p.node.self, hops := 0 } else p.lock
  nodeFindSuccessorRest found p id (if own then cb.called else cb)

theorem nodeFindSuccessorWith_nodeFound (p : Process ν) (id : HashType) (cb : FoundCb) :
  nodeFindSuccessorWith nodeFound p id cb = nodeFindSuccessor p id cb
  := rfl

/-- What an application does in its callbacks: the lookups that it starts, each with the number
of the callback it is for, when a node is handed to the callback with a number. They may
depend on all that has happened. -/
abbrev App (ν : Type) : Type :=
  Process ν → ℕ → NodeInfo → Int16 → List (HashType × ℕ)

variable (app : App ν)

/-- The lookups that are started when a node is handed to a callback. Callbacks may be called
within callbacks to a depth. -/
def callsOf (depth : ℕ) (p : Process ν) (data : NodeFoundCbData) : List (HashType × ℕ) :=
  match depth, data.cb with
  | _ + 1, .app arg => app p arg data.node data.hops
  | _, _ => []

/-- `node_found`, with the lookups that the callback starts. -/
def nodeFoundWith : ℕ → Process ν → NodeFoundCbData → Process ν
  | 0, p, data => nodeFound p data
  | depth + 1, p, data =>
    (callsOf app (depth + 1) p data).foldl
      (fun p call => (nodeFindSuccessorWith (nodeFoundWith depth) p call.1 (.app call.2)).2)
      (nodeFound p data)

/-- What the process of a node is made to do: by the application, by a request, by the reply
to a request or the outcome of a probe, and by timers. -/
inductive Operation where
  | findSuccessor (id : HashType) (arg : ℕ)
  | succRequest (id : HashType) (data : IncomingHandlerData)
  | found (data : NodeFoundCbData)
  | checked (cb : CheckCb) (success : Bool)
  | stabalize
  | updateSuccs
  | fixFingers
  | checkSuccessors
  | checkPredecessor
  | joined (joinedCbArg : ℕ)
  | networkCreate (joinedCbArg : ℕ)
  | networkJoin (node : NodeInfo) (joinedCbArg : ℕ)

/-- An operation, with the lookups that callbacks start. -/
def Operation.run (depth : ℕ) (p : Process ν) : Operation → Process ν
  | .findSuccessor id arg =>
    (nodeFindSuccessorWith (nodeFoundWith app depth) p id (.app arg)).2
  | .succRequest id data =>
    (nodeFindSuccessorWith (nodeFoundWith app depth) p id (.successorFoundForRemote data)).2
  | .found data => nodeFoundWith app depth p data
  | .checked cb success => nodeCheckResult p cb success
  | .stabalize => nodeNetworkStabalize p
  | .updateSuccs => nodeUpdateSuccs p
  | .fixFingers => nodeFixFingers p
  | .checkSuccessors => nodeCheckSuccessors p
  | .checkPredecessor => nodeCheckPredecessor p
  | .joined arg => nodeNetworkJoined p arg
  | .networkCreate arg => (nodeNetworkCreate p arg).2
  | .networkJoin node arg => nodeNetworkJoin p node arg

end

/-! ### Uses of the mutex -/

/-- The event is a use of the mutex. -/
def Event.isMutex : Event → Bool
  | .lock _ | .unlock _ => true
  | _ => false

/-- The mutex is taken when it is free, and released when it is held. -/
def Event.Disciplined : Event → Prop
  | .lock held => held = false
  | .unlock held => held = true
  | _ => True

/-- A step of a run: an operation, in which callbacks are called within callbacks to a depth,
or anything else that happens to the process, which is no use of the mutex. -/
inductive LockStep (ν : Type) where
  | operation (depth : ℕ) (o : Operation)
  | elsewhere (node : NodeSelf) (net : ν) (events : List Event)

section

variable {ν : Type} [Remote ν] (app : App ν)

omit [Remote ν] in
/-- Something happens to a process that is no use of the mutex. -/
def Process.elsewhere (p : Process ν) (node : NodeSelf) (net : ν) (events : List Event) :
    Process ν :=
  { node := node, net := net, succsLock := p.succsLock
    log := p.log ++ events.filter fun e => !e.isMutex }

def LockStep.run (p : Process ν) : LockStep ν → Process ν
  | .operation depth o => o.run app depth p
  | .elsewhere node net events => p.elsewhere node net events

omit [Remote ν] in
/-- On the way from `p` to `q` the mutex is used as it should be, and it is free at the end. -/
def Disciplined (p q : Process ν) : Prop :=
  (∃ es, q.log = p.log ++ es ∧ ∀ e ∈ es, e.Disciplined) ∧ q.succsLock = false

/-- In every step of a run the mutex is used as it should be. -/
def LocksRight : Process ν → List (LockStep ν) → Prop
  | _, [] => True
  | p, step :: steps => Disciplined p (step.run app p) ∧ LocksRight (step.run app p) steps

/-- A lookup is not for the node's own identifier, and its callback starts no other one if it
is called at once. -/
def CarefulLookup (depth : ℕ) (p : Process ν) (id : HashType) (cb : FoundCb) : Prop :=
  p.node.self.id ≠ id ∧ (p.node.Answers id →
    callsOf app depth (p.lock.touch (nodeFirstAliveSucc p.node))
      { cb := cb, node := p.node.firstSucc, hops := 0 } = [])

/-- Every one of the lookups, which are started one after another, is careful. -/
def CarefulCalls (depth : ℕ) : Process ν → List (HashType × ℕ) → Prop
  | _, [] => True
  | p, call :: calls => CarefulLookup app depth p call.1 (.app call.2)
    ∧ CarefulCalls depth
      (nodeFindSuccessorWith (nodeFoundWith app depth) p call.1 (.app call.2)).2 calls

/-- The lookups that an operation starts, and those that are started in a callback that the
reply to a request is handed to, are careful. -/
def Operation.Careful (depth : ℕ) (p : Process ν) : Operation → Prop
  | .findSuccessor id arg => CarefulLookup app depth p id (.app arg)
  | .succRequest id _ => p.node.self.id ≠ id
  | .found data => CarefulCalls app (depth - 1) (nodeFound p data) (callsOf app depth p data)
  | _ => True

def LockStep.Careful (p : Process ν) : LockStep ν → Prop
  | .operation depth o => o.Careful app depth p
  | .elsewhere _ _ _ => True

/-- The operations of a run are careful. -/
def CarefulRun : Process ν → List (LockStep ν) → Prop
  | _, [] => True
  | p, step :: steps => step.Careful app p ∧ CarefulRun (step.run app p) steps

end

/-! ### What an operation does to the mutex -/

/-- A release counts one, and a taking minus one. -/
def Event.released : Event → ℤ
  | .lock _ => -1
  | .unlock _ => 1
  | _ => 0

/-- How much more often the mutex is released than taken. -/
def surplus : List Event → ℤ
  | [] => 0
  | e :: ms => e.released + surplus ms

/-- The uses `ms` of the mutex, from a state of the mutex to another one. -/
inductive Held : Bool → List Event → Bool → Prop where
  | nil {l : Bool} : Held l [] l
  | lock {l l' : Bool} {ms : List Event} (h : Held true ms l') : Held l (.lock l :: ms) l'
  | unlock {l l' : Bool} {ms : List Event} (h : Held false ms l') : Held l (.unlock l :: ms) l'

theorem Held.append {l l' l'' : Bool} {ms ms' : List Event} (h : Held l ms l')
    (h' : Held l' ms' l'') :
  Held l (ms ++ ms') l''
  := by
  induction h with
  | nil => exact h'
  | lock _ ih => exact Held.lock (ih h')
  | unlock _ ih => exact Held.unlock (ih h')

theorem Held.eq_of_nil {l l' : Bool} (h : Held l [] l') :
  l' = l
  := by
  cases h
  rfl

theorem Held.eq_of_unlock {l l' held : Bool} (h : Held l [.unlock held] l') :
  l' = false
  := by
  cases h with
  | unlock h => exact h.eq_of_nil

@[simp]
theorem surplus_append (ms ms' : List Event) :
  surplus (ms ++ ms') = surplus ms + surplus ms'
  := by
  induction ms with
  | nil => rw [List.nil_append, surplus, Int.zero_add]
  | cons e ms ih => rw [List.cons_append, surplus, surplus, ih, Int.add_assoc]

/-- When every use is as it should be, the mutex is released as often as it was taken. -/
theorem Held.surplus_eq {l l' : Bool} {ms : List Event} (h : Held l ms l')
    (hms : ∀ e ∈ ms, e.Disciplined) :
  surplus ms = l.toInt - l'.toInt
  := by
  induction h with
  | nil => simp [surplus]
  | @lock l l' ms h ih =>
    obtain ⟨hl, hrest⟩ := List.forall_mem_cons.mp hms
    obtain rfl : l = false := hl
    have hsum : surplus (.lock false :: ms) = -1 + surplus ms := rfl
    rw [hsum, ih hrest, Bool.toInt_true, Bool.toInt_false]
    omega
  | @unlock l l' ms h ih =>
    obtain ⟨hl, hrest⟩ := List.forall_mem_cons.mp hms
    obtain rfl : l = true := hl
    have hsum : surplus (.unlock true :: ms) = 1 + surplus ms := rfl
    rw [hsum, ih hrest, Bool.toInt_true, Bool.toInt_false]
    omega

section

variable {ν : Type}

/-- On the way from `p` to `q` the uses of the mutex are `ms`. -/
structure Uses (p : Process ν) (ms : List Event) (q : Process ν) : Prop where
  log : ∃ es, q.log = p.log ++ es ∧ es.filter Event.isMutex = ms
  held : Held p.succsLock ms q.succsLock

namespace Uses

variable {p q : Process ν} {ms : List Event}

theorem refl (p : Process ν) :
  Uses p [] p
  := ⟨⟨[], by simp, rfl⟩, Held.nil⟩

theorem trans {r : Process ν} {ms' : List Event} (h : Uses p ms q) (h' : Uses q ms' r) :
  Uses p (ms ++ ms') r
  := by
  obtain ⟨es, hes, hms⟩ := h.log
  obtain ⟨es', hes', hms'⟩ := h'.log
  refine ⟨⟨es ++ es', ?_, ?_⟩, h.held.append h'.held⟩
  · rw [hes', hes, List.append_assoc]
  · rw [List.filter_append, hms, hms']

theorem lock (h : Uses p ms q) :
  Uses p (ms ++ [.lock q.succsLock]) q.lock
  := h.trans ⟨⟨_, rfl, rfl⟩, Held.lock Held.nil⟩

theorem unlock (h : Uses p ms q) :
  Uses p (ms ++ [.unlock q.succsLock]) q.unlock
  := h.trans ⟨⟨_, rfl, rfl⟩, Held.unlock Held.nil⟩

/-- Anything that is no use of the mutex. -/
theorem other (h : Uses p ms q) {r : Process ν} {es : List Event} (hlog : r.log = q.log ++ es)
    (hes : es.filter Event.isMutex = []) (hlock : r.succsLock = q.succsLock) :
  Uses p ms r
  := by
  rw [← List.append_nil ms]
  refine h.trans ⟨⟨es, hlog, hes⟩, ?_⟩
  rw [hlock]
  exact Held.nil

/-- The mutex is used as it should be, exactly when its uses are and it is free at the end. -/
theorem disciplined_iff (h : Uses p ms q) :
  Disciplined p q ↔ (∀ e ∈ ms, e.Disciplined) ∧ q.succsLock = false
  := by
  obtain ⟨es, hes, rfl⟩ := h.log
  apply and_congr_left'
  constructor
  · rintro ⟨es', hes', hall⟩ e he
    rw [hes] at hes'
    obtain rfl := List.append_cancel_left hes'
    exact hall e (List.mem_filter.mp he).1
  · intro hall
    refine ⟨es, hes, ?_⟩
    intro e he
    by_cases hm : e.isMutex = true
    · exact hall e (List.mem_filter.mpr ⟨he, hm⟩)
    · cases e with
      | lock l => exact absurd rfl hm
      | unlock l => exact absurd rfl hm
      | _ => trivial

end Uses

end

section

variable {ν : Type}

/-! ### Operations that take the mutex in sections -/

/-- On the way from `p` to `q` the mutex is not used. -/
abbrev Quiet (p q : Process ν) : Prop :=
  Uses p [] q

/-- On the way from `p` to `q` the mutex is released as often as it is taken; and if it is free
first, it is used as it should be. -/
def Sectioned (p q : Process ν) : Prop :=
  ∃ ms, Uses p ms q ∧ surplus ms = 0
    ∧ (p.succsLock = false → (∀ e ∈ ms, e.Disciplined) ∧ q.succsLock = false)

variable {p q r : Process ν}

theorem touch_quiet (h : Quiet p q) (i : ℤ) :
  Quiet p (q.touch i)
  := h.other (Process.touch_log q i) rfl rfl

theorem setSucc_quiet (h : Quiet p q) (i : ℤ) (n : NodeInfo) :
  Quiet p (q.setSucc i n)
  := h.other (Process.setSucc_log q i n) rfl rfl

theorem emit_quiet (h : Quiet p q) {e : Event} (he : e.isMutex = false) :
  Quiet p (q.emit e)
  := h.other (Process.emit_log q e) (by simp [he]) rfl

namespace Sectioned

theorem of_quiet (h : Quiet p q) :
  Sectioned p q
  := by
  refine ⟨[], h, rfl, ?_⟩
  intro hfree
  refine ⟨by simp, ?_⟩
  rw [h.held.eq_of_nil, hfree]

theorem trans (h : Sectioned p q) (h' : Sectioned q r) :
  Sectioned p r
  := by
  obtain ⟨ms, huses, hsum, hfree⟩ := h
  obtain ⟨ms', huses', hsum', hfree'⟩ := h'
  refine ⟨ms ++ ms', huses.trans huses', ?_, ?_⟩
  · rw [surplus_append, hsum, hsum']
    rfl
  · intro hp
    obtain ⟨hms, hq⟩ := hfree hp
    obtain ⟨hms', hr⟩ := hfree' hq
    refine ⟨?_, hr⟩
    intro e he
    rcases List.mem_append.mp he with he | he
    · exact hms e he
    · exact hms' e he

/-- The mutex is taken, and released when what is done under it is done. -/
theorem of_lock (h : Quiet p.lock q) :
  Sectioned p q.unlock
  := by
  have hq : q.succsLock = true := h.held.eq_of_nil
  refine ⟨_, ((Uses.refl p).lock.trans h).unlock, rfl, ?_⟩
  intro hp
  refine ⟨?_, rfl⟩
  simp [Event.Disciplined, hp, hq]

theorem disciplined (h : Sectioned p q) (hp : p.succsLock = false) :
  Disciplined p q
  := by
  obtain ⟨ms, huses, -, hfree⟩ := h
  exact huses.disciplined_iff.mpr (hfree hp)

end Sectioned

end

section

variable {ν : Type} [Remote ν] {p q : Process ν}

theorem nodeFindSuccessorRemote_quiet (h : Quiet p q) (n : NodeInfo) (id : HashType)
    (cb : FoundCb) :
  Quiet p (nodeFindSuccessorRemote q n id cb).2
  := by
  have hasked := emit_quiet h (e := .asked cb (Remote.findSuccessorRemote q.net q.node n id cb).1) rfl
  exact hasked.other (List.append_nil _).symm rfl rfl

theorem nodeUpdateSucc_quiet (h : Quiet p q) (succNum : ℤ) :
  Quiet p (nodeUpdateSucc q succNum)
  := by
  unfold nodeUpdateSucc
  dsimp only
  split
  · exact touch_quiet h succNum
  · exact nodeFindSuccessorRemote_quiet (touch_quiet h succNum) _ _ _

theorem nodeNotifyNode_quiet (h : Quiet p q) (n : NodeInfo) :
  Quiet p (nodeNotifyNode q n)
  := h.other (List.append_nil _).symm rfl rfl

theorem nodeStabilizeSpFound_sectioned (p : Process ν) (newSucc : NodeInfo) :
  Sectioned p (nodeStabilizeSpFound p newSucc)
  := by
  have hnotify : ∀ q : Process ν, Sectioned q
      (nodeNotifyNode (q.lock.touch (nodeFirstAliveSucc q.lock.node))
        ((q.lock.touch (nodeFirstAliveSucc q.lock.node)).node.successorAt
          (nodeFirstAliveSucc q.lock.node))).unlock := by
    intro q
    apply Sectioned.of_lock
    apply nodeNotifyNode_quiet
    exact touch_quiet (Uses.refl q.lock) _
  rw [nodeStabilizeSpFound]
  dsimp only
  split
  · exact hnotify p
  · refine Sectioned.trans ?_ (hnotify _)
    apply Sectioned.of_lock
    have htouch := touch_quiet (Uses.refl p.lock) (nodeFirstAliveSucc p.lock.node)
    split
    · exact setSucc_quiet htouch 0 newSucc
    · exact htouch

theorem nodeUpdateSuccsFound_sectioned (p : Process ν) (found : NodeInfo) (succNum : ℤ) :
  Sectioned p (nodeUpdateSuccsFound p found succNum)
  := by
  rw [nodeUpdateSuccsFound]
  apply Sectioned.of_lock
  have hset := setSucc_quiet (Uses.refl p.lock) succNum found
  split
  · exact nodeUpdateSucc_quiet hset succNum
  · exact hset

theorem nodeUpdateSuccs_sectioned (p : Process ν) :
  Sectioned p (nodeUpdateSuccs p)
  := Sectioned.of_lock (nodeUpdateSucc_quiet (Uses.refl p.lock) _)

theorem nodeFound_sectioned (p : Process ν) (data : NodeFoundCbData) :
  Sectioned p (nodeFound p data)
  := by
  have hfound := emit_quiet (Uses.refl p) (e := .found data.cb data.node data.hops) rfl
  unfold nodeFound
  dsimp only
  split
  · apply Sectioned.of_quiet
    unfold nodeNetworkJoinSuccFound
    dsimp only
    split
    · exact emit_quiet (setSucc_quiet hfound 0 data.node) rfl
    · exact setSucc_quiet hfound 0 data.node
  · exact (Sectioned.of_quiet hfound).trans (nodeStabilizeSpFound_sectioned _ _)
  · exact (Sectioned.of_quiet hfound).trans (nodeUpdateSuccsFound_sectioned _ _ _)
  · exact Sectioned.of_quiet (hfound.other (List.append_nil _).symm rfl rfl)
  · exact Sectioned.of_quiet (hfound.other (List.append_nil _).symm rfl rfl)
  · exact Sectioned.of_quiet hfound
  · exact Sectioned.of_quiet (hfound.other (List.append_nil _).symm rfl rfl)

/-- The callbacks that a lookup is started with do not use the mutex. -/
theorem nodeFound_quiet {cb : FoundCb} (hcb : cb.Passive) (p : Process ν) (n : NodeInfo)
    (hops : Int16) :
  Quiet p (nodeFound p { cb := cb, node := n, hops := hops })
  := by
  have hfound := emit_quiet (Uses.refl p) (e := .found cb n hops) rfl
  cases cb with
  | fingerUpdate k => exact hfound.other (List.append_nil _).symm rfl rfl
  | successorFoundForRemote d => exact hfound.other (List.append_nil _).symm rfl rfl
  | app a => exact hfound
  | freed => exact hfound.other (List.append_nil _).symm rfl rfl
  | _ => exact absurd hcb not_false

end

section

variable {ν : Type} {p q r : Process ν}

/-! ### Counting -/

/-- On the way from `p` to `q` the mutex is released at least `n` times more than taken. -/
def AtLeast (n : ℤ) (p q : Process ν) : Prop :=
  ∃ ms, Uses p ms q ∧ n ≤ surplus ms

/-- On the way from `p` to `q` the mutex is used as it should not be, or released more than
`n` times more than taken. -/
def Breaks (n : ℤ) (p q : Process ν) : Prop :=
  ∃ ms, Uses p ms q ∧ (n < surplus ms ∨ ∃ e ∈ ms, ¬ e.Disciplined)

theorem Sectioned.atLeast (h : Sectioned p q) :
  AtLeast 0 p q
  := by
  obtain ⟨ms, huses, hsum, -⟩ := h
  exact ⟨ms, huses, hsum.ge⟩

theorem AtLeast.trans {m n : ℤ} (h : AtLeast m p q) (h' : AtLeast n q r) :
  AtLeast (m + n) p r
  := by
  obtain ⟨ms, huses, hm⟩ := h
  obtain ⟨ms', huses', hn⟩ := h'
  refine ⟨ms ++ ms', huses.trans huses', ?_⟩
  rw [surplus_append]
  omega

theorem atLeast_lock (p : Process ν) :
  AtLeast (-1) p p.lock
  := ⟨_, (Uses.refl p).lock, le_rfl⟩

theorem atLeast_unlock (p : Process ν) :
  AtLeast 1 p p.unlock
  := ⟨_, (Uses.refl p).unlock, le_rfl⟩

theorem AtLeast.breaks {m n : ℤ} (h : AtLeast m p q) (hlt : n < m) :
  Breaks n p q
  := by
  obtain ⟨ms, huses, hm⟩ := h
  exact ⟨ms, huses, Or.inl (lt_of_lt_of_le hlt hm)⟩

/-- To take a mutex that is held. -/
theorem breaks_lock (n : ℤ) (hp : p.succsLock = true) :
  Breaks n p p.lock
  := by
  refine ⟨_, (Uses.refl p).lock, Or.inr ⟨_, List.mem_singleton_self _, ?_⟩⟩
  rw [hp]
  exact Bool.noConfusion

theorem Breaks.trans {m n : ℤ} (h : Breaks m p q) (h' : AtLeast n q r) :
  Breaks (m + n) p r
  := by
  obtain ⟨ms, huses, hbreaks⟩ := h
  obtain ⟨ms', huses', hn⟩ := h'
  refine ⟨ms ++ ms', huses.trans huses', ?_⟩
  rcases hbreaks with hm | ⟨e, he, hwrong⟩
  · left
    rw [surplus_append]
    omega
  · exact Or.inr ⟨e, List.mem_append_left _ he, hwrong⟩

theorem AtLeast.trans_breaks {m n : ℤ} (h : AtLeast m p q) (h' : Breaks n q r) :
  Breaks (m + n) p r
  := by
  obtain ⟨ms, huses, hm⟩ := h
  obtain ⟨ms', huses', hbreaks⟩ := h'
  refine ⟨ms ++ ms', huses.trans huses', ?_⟩
  rcases hbreaks with hn | ⟨e, he, hwrong⟩
  · left
    rw [surplus_append]
    omega
  · exact Or.inr ⟨e, List.mem_append_right _ he, hwrong⟩

/-- From a free mutex to a free one, it is released as often as it is taken. -/
theorem Breaks.not_disciplined (h : Breaks 0 p q) (hp : p.succsLock = false) :
  ¬ Disciplined p q
  := by
  intro hdisciplined
  obtain ⟨ms, huses, hbreaks⟩ := h
  obtain ⟨hms, hq⟩ := huses.disciplined_iff.mp hdisciplined
  have hsum := huses.held.surplus_eq hms
  rw [hp, hq] at hsum
  rcases hbreaks with hlt | ⟨e, he, hwrong⟩
  · rw [hsum] at hlt
    exact absurd hlt (by decide)
  · exact hwrong (hms e he)

end

section

variable {ν : Type} [Remote ν] {app : App ν} {found : Process ν → NodeFoundCbData → Process ν}
  {p : Process ν} {id : HashType} {cb : FoundCb}

/-! ### Lookups -/

theorem nodeFindSuccessorWith_of_ne (hne : p.node.self.id ≠ id) :
  nodeFindSuccessorWith found p id cb = nodeFindSuccessorRest found p.lock id cb
  := by
  have hcmp : ¬ (nodeIdCompare p.node.self.id id == 0) = true := by simp [hne]
  simp only [nodeFindSuccessorWith, if_neg hcmp]

theorem nodeFindSuccessorWith_self (heq : p.node.self.id = id) :
  nodeFindSuccessorWith found p id cb
    = nodeFindSuccessorRest found (found p { cb := cb, node := p.node.self, hops := 0 }) id
      cb.called
  := by
  have hcmp : (nodeIdCompare p.node.self.id id == 0) = true := by simp [heq]
  simp only [nodeFindSuccessorWith, if_pos hcmp]

theorem nodeFindSuccessorRest_answer (h : p.node.Answers id) :
  nodeFindSuccessorRest found p id cb
    = (0, (found (p.touch (nodeFirstAliveSucc p.node))
        { cb := cb, node := p.node.firstSucc, hops := 0 }).unlock)
  := by
  rw [nodeFindSuccessorRest]
  dsimp only
  rw [if_pos]
  · rfl
  · simpa [NodeSelf.Answers, NodeSelf.firstSucc] using h

/-- The mutex is released before another node is asked. -/
theorem nodeFindSuccessorRest_forward (h : ¬ p.node.Answers id) :
  Uses p [.unlock p.succsLock] (nodeFindSuccessorRest found p id cb).2
  := by
  have hunlock := (touch_quiet (Uses.refl p) (nodeFirstAliveSucc p.node)).unlock
  rw [nodeFindSuccessorRest]
  dsimp only
  rw [if_neg]
  · have hremote : ∀ q : Process ν, Uses p [.unlock p.succsLock] q → ∀ n,
        Uses p [.unlock p.succsLock] (nodeFindSuccessorRemote q n id cb).2 := by
      intro q hq n
      have hquiet := hq.trans (nodeFindSuccessorRemote_quiet (Uses.refl q) n id cb)
      rwa [List.append_nil] at hquiet
    apply hremote
    split
    · have htouch := hunlock.trans (touch_quiet (Uses.refl _) (nodeFirstAliveSucc p.node))
      rwa [List.append_nil] at htouch
    · exact hunlock
  · simpa [NodeSelf.Answers, NodeSelf.firstSucc] using h

/-- From `int succ_num` on, the mutex is released once more than it is taken. -/
theorem nodeFindSuccessorRest_atLeast (hfound : ∀ p data, AtLeast 0 p (found p data)) :
  AtLeast 1 p (nodeFindSuccessorRest found p id cb).2
  := by
  by_cases h : p.node.Answers id
  · rw [nodeFindSuccessorRest_answer h]
    have htouch := (Sectioned.of_quiet (touch_quiet (Uses.refl p)
      (nodeFirstAliveSucc p.node))).atLeast
    exact (htouch.trans (hfound _ _)).trans (atLeast_unlock _)
  · exact ⟨_, nodeFindSuccessorRest_forward h, le_rfl⟩

/-- A lookup of the node's own identifier releases the mutex once more than it takes it. -/
theorem nodeFindSuccessorWith_self_atLeast (hfound : ∀ p data, AtLeast 0 p (found p data))
    (heq : p.node.self.id = id) :
  AtLeast 1 p (nodeFindSuccessorWith found p id cb).2
  := by
  rw [nodeFindSuccessorWith_self heq]
  exact (hfound p _).trans (nodeFindSuccessorRest_atLeast hfound)

theorem nodeFindSuccessorWith_atLeast (hfound : ∀ p data, AtLeast 0 p (found p data)) :
  AtLeast 0 p (nodeFindSuccessorWith found p id cb).2
  := by
  by_cases heq : p.node.self.id = id
  · have hself : AtLeast 1 p (nodeFindSuccessorWith found p id cb).2 :=
      nodeFindSuccessorWith_self_atLeast hfound heq
    obtain ⟨ms, huses, hsum⟩ := hself
    exact ⟨ms, huses, by omega⟩
  · rw [nodeFindSuccessorWith_of_ne heq]
    exact (atLeast_lock p).trans (nodeFindSuccessorRest_atLeast hfound)

theorem foldl_atLeast (hfound : ∀ p data, AtLeast 0 p (found p data))
    (calls : List (HashType × ℕ)) (p : Process ν) :
  AtLeast 0 p
    (calls.foldl (fun p call => (nodeFindSuccessorWith found p call.1 (.app call.2)).2) p)
  := by
  induction calls generalizing p with
  | nil => exact ⟨[], Uses.refl p, le_rfl⟩
  | cons call calls ih => exact (nodeFindSuccessorWith_atLeast hfound).trans (ih _)

/-- A callback that is handed a node never releases the mutex less often than it takes it. -/
theorem nodeFoundWith_atLeast (depth : ℕ) (p : Process ν) (data : NodeFoundCbData) :
  AtLeast 0 p (nodeFoundWith app depth p data)
  := by
  induction depth generalizing p data with
  | zero => exact (nodeFound_sectioned p data).atLeast
  | succ depth ih => exact (nodeFound_sectioned p data).atLeast.trans (foldl_atLeast ih _ _)

/-- What a callback does in which no lookup is started. -/
theorem nodeFoundWith_of_nil {depth : ℕ} {data : NodeFoundCbData}
    (h : callsOf app depth p data = []) :
  nodeFoundWith app depth p data = nodeFound p data
  := by
  cases depth with
  | zero => rfl
  | succ depth => rw [nodeFoundWith, h, List.foldl_nil]

/-- A careful lookup uses the mutex as it should. -/
theorem CarefulLookup.sectioned {depth : ℕ} (h : CarefulLookup app depth p id cb)
    (hcb : cb.Passive) :
  Sectioned p (nodeFindSuccessorWith (nodeFoundWith app depth) p id cb).2
  := by
  obtain ⟨hne, hcalls⟩ := h
  rw [nodeFindSuccessorWith_of_ne hne]
  by_cases hanswers : p.node.Answers id
  · rw [nodeFindSuccessorRest_answer (p := p.lock) hanswers]
    apply Sectioned.of_lock
    have hquiet := nodeFound_quiet hcb (p.lock.touch (nodeFirstAliveSucc p.node)) p.node.firstSucc 0
    rw [← nodeFoundWith_of_nil (hcalls hanswers)] at hquiet
    exact (touch_quiet (Uses.refl p.lock) _).trans hquiet
  · have hrest : Uses p.lock [.unlock p.lock.succsLock]
        (nodeFindSuccessorRest (nodeFoundWith app depth) p.lock id cb).2 :=
      nodeFindSuccessorRest_forward hanswers
    refine ⟨_, (Uses.refl p).lock.trans hrest, rfl, ?_⟩
    intro hp
    refine ⟨?_, hrest.held.eq_of_unlock⟩
    have hlocked : p.lock.succsLock = true := rfl
    simp [Event.Disciplined, hp, hlocked]

/-- A lookup that is started in a callback, while the mutex is held. -/
theorem nodeFoundWith_breaks {depth : ℕ} {data : NodeFoundCbData} (hp : p.succsLock = true)
    (hcalls : callsOf app depth p data ≠ []) :
  Breaks 0 p (nodeFoundWith app depth p data)
  := by
  cases depth with
  | zero => exact absurd rfl hcalls
  | succ depth =>
    have happ : data.cb.Passive := by
      unfold callsOf at hcalls
      split at hcalls
      · rename_i hcb
        rw [hcb]
        trivial
      · exact absurd rfl hcalls
    have hquiet := nodeFound_quiet happ p data.node data.hops
    have hlocked : (nodeFound p data).succsLock = true := hquiet.held.eq_of_nil.trans hp
    obtain ⟨call, calls, hcons⟩ := List.exists_cons_of_ne_nil hcalls
    have hfound : ∀ p data, AtLeast 0 p (nodeFoundWith app depth p data) :=
      nodeFoundWith_atLeast depth
    have hcall : Breaks 0 (nodeFound p data)
        (nodeFindSuccessorWith (nodeFoundWith app depth) (nodeFound p data) call.1
          (.app call.2)).2 := by
      by_cases heq : (nodeFound p data).node.self.id = call.1
      · exact (nodeFindSuccessorWith_self_atLeast hfound heq).breaks (by decide)
      · rw [nodeFindSuccessorWith_of_ne heq]
        exact (breaks_lock (-1) hlocked).trans (nodeFindSuccessorRest_atLeast hfound)
    rw [nodeFoundWith, hcons, List.foldl_cons]
    have hfirst := (Sectioned.of_quiet hquiet).atLeast
    exact (hfirst.trans_breaks hcall).trans (foldl_atLeast hfound _ _)

/-- A lookup that is not careful does not. -/
theorem breaks_of_not_careful {depth : ℕ} (h : ¬ CarefulLookup app depth p id cb) :
  Breaks 0 p (nodeFindSuccessorWith (nodeFoundWith app depth) p id cb).2
  := by
  by_cases heq : p.node.self.id = id
  · exact (nodeFindSuccessorWith_self_atLeast (nodeFoundWith_atLeast depth) heq).breaks (by decide)
  · have hcalls := not_and.mp h heq
    rw [Classical.not_imp] at hcalls
    obtain ⟨hanswers, hcalls⟩ := hcalls
    rw [nodeFindSuccessorWith_of_ne heq, nodeFindSuccessorRest_answer (p := p.lock) hanswers]
    have hlock := (atLeast_lock p).trans
      (Sectioned.of_quiet (touch_quiet (Uses.refl p.lock) (nodeFirstAliveSucc p.node))).atLeast
    have hfound := nodeFoundWith_breaks (p := p.lock.touch (nodeFirstAliveSucc p.node)) rfl hcalls
    exact (hlock.trans_breaks hfound).trans (atLeast_unlock _)

/-- The lookups of a callback, when all of them are careful. -/
theorem CarefulCalls.sectioned {depth : ℕ} {calls : List (HashType × ℕ)}
    (h : CarefulCalls app depth p calls) :
  Sectioned p (calls.foldl
    (fun p call => (nodeFindSuccessorWith (nodeFoundWith app depth) p call.1 (.app call.2)).2) p)
  := by
  induction calls generalizing p with
  | nil => exact Sectioned.of_quiet (Uses.refl p)
  | cons call calls ih =>
    obtain ⟨hcall, hcalls⟩ := h
    have happ : (FoundCb.app call.2).Passive := trivial
    exact (hcall.sectioned happ).trans (ih hcalls)

/-- The lookups of a callback, when one of them is not. -/
theorem breaks_of_not_carefulCalls {depth : ℕ} {calls : List (HashType × ℕ)}
    (h : ¬ CarefulCalls app depth p calls) :
  Breaks 0 p (calls.foldl
    (fun p call => (nodeFindSuccessorWith (nodeFoundWith app depth) p call.1 (.app call.2)).2) p)
  := by
  induction calls generalizing p with
  | nil => exact absurd trivial h
  | cons call calls ih =>
    rw [List.foldl_cons]
    have hfound : ∀ p data, AtLeast 0 p (nodeFoundWith app depth p data) :=
      nodeFoundWith_atLeast depth
    by_cases hcall : CarefulLookup app depth p call.1 (.app call.2)
    · have hcalls := ih fun hrest => h ⟨hcall, hrest⟩
      exact (nodeFindSuccessorWith_atLeast hfound).trans_breaks hcalls
    · exact (breaks_of_not_careful hcall).trans (foldl_atLeast hfound _ _)

/-! ### Operations -/

/-- A lookup of the node for a finger is not for the node's own identifier. -/
theorem nodeFixAFinger_sectioned (p : Process ν) (fingerNum : ℤ) :
  Sectioned p (nodeFixAFinger p fingerNum)
  := by
  rw [nodeFixAFinger]
  split
  · exact Sectioned.of_quiet (Uses.refl p)
  · rename_i hnum
    have hne := fingerId_ne p.node.self.id hnum
    dsimp only
    rw [← nodeFindSuccessorWith_nodeFound]
    have hcareful : CarefulLookup (fun _ _ _ _ => []) 0 p
        (p.node.self.id + (twoToTheN (fingerNum - 1)).toNat.toUInt32)
        (.fingerUpdate ⟨fingerNum.toNat, by omega⟩) := ⟨hne.symm, fun _ => rfl⟩
    exact hcareful.sectioned trivial

theorem nodeFixFingers_sectioned (p : Process ν) :
  Sectioned p (nodeFixFingers p)
  := by
  rw [nodeFixFingers]
  generalize List.range idBits = fnums
  induction fnums generalizing p with
  | nil => exact Sectioned.of_quiet (Uses.refl p)
  | cons fnum fnums ih => exact (nodeFixAFinger_sectioned p fnum).trans (ih _)

theorem nodeCheckNode_quiet {q : Process ν} (h : Quiet p q) (n : NodeInfo) (cb : CheckCb) :
  Quiet p (nodeCheckNode q n cb)
  := (emit_quiet h (e := .probed cb) rfl).other (List.append_nil _).symm rfl rfl

theorem nodeCheckSuccessors_quiet (p : Process ν) :
  Quiet p (nodeCheckSuccessors p)
  := by
  rw [nodeCheckSuccessors]
  generalize List.finRange numOfSuccs = is
  have hfold : ∀ q, Quiet p q → Quiet p (is.foldl (fun p i =>
      let p := p.touch i.val
      if (p.node.successor i).IP ≠ 0 then
        nodeCheckNode p (p.node.successor i) (.succResult i.val)
      else p) q) := by
    induction is with
    | nil => exact fun q hq => hq
    | cons i is ih =>
      intro q hq
      apply ih
      dsimp only
      split
      · exact nodeCheckNode_quiet (touch_quiet hq _) _ _
      · exact touch_quiet hq _
  exact hfold p (Uses.refl p)

omit [Remote ν] in
theorem nodeCheckResult_quiet (p : Process ν) (cb : CheckCb) (success : Bool) :
  Quiet p (nodeCheckResult p cb success)
  := by
  have hchecked := emit_quiet (Uses.refl p) (e := .checked cb success) rfl
  unfold nodeCheckResult
  dsimp only
  split
  · split
    · exact hchecked.other (List.append_nil _).symm rfl rfl
    · exact hchecked
  · split
    · exact setSucc_quiet hchecked _ _
    · exact hchecked

theorem nodeNetworkStabalize_quiet (p : Process ν) :
  Quiet p (nodeNetworkStabalize p)
  := by
  have htouch := touch_quiet (Uses.refl p) (nodeFirstAliveSucc p.node)
  have hasked := emit_quiet htouch (e := .asked .stabilizeSpFound 0) rfl
  exact hasked.other (List.append_nil _).symm rfl rfl

theorem nodeNetworkJoined_sectioned (p : Process ν) (arg : ℕ) :
  Sectioned p (nodeNetworkJoined p arg)
  := by
  have hjoined := Sectioned.of_quiet (emit_quiet (Uses.refl p) (e := .joined arg) rfl)
  have hstabalize := hjoined.trans (Sectioned.of_quiet (nodeNetworkStabalize_quiet _))
  exact (hstabalize.trans (nodeUpdateSuccs_sectioned _)).trans (nodeFixFingers_sectioned _)

theorem nodeNetworkCreate_quiet (p : Process ν) (arg : ℕ) :
  Quiet p (nodeNetworkCreate p arg).2
  := by
  rw [nodeNetworkCreate]
  dsimp only
  have hself := setSucc_quiet (Uses.refl p) 0 p.node.self
  split
  · apply emit_quiet _ rfl
    exact hself.other (List.append_nil _).symm rfl rfl
  · exact hself.other (List.append_nil _).symm rfl rfl

theorem nodeNetworkJoin_quiet (p : Process ν) (node : NodeInfo) (arg : ℕ) :
  Quiet p (nodeNetworkJoin p node arg)
  := by
  have hpred : Quiet p { p with node := { p.node with hasPred := false } } :=
    (Uses.refl p).other (List.append_nil _).symm rfl rfl
  exact nodeFindSuccessorRemote_quiet hpred _ _ _

/-- An operation that finds the mutex free uses it as it should exactly when it is careful. -/
theorem Operation.disciplined_iff (hp : p.succsLock = false) (depth : ℕ) (o : Operation) :
  Disciplined p (o.run app depth p) ↔ o.Careful app depth p
  := by
  have hlookup : ∀ id cb, FoundCb.Passive cb →
      (Disciplined p (nodeFindSuccessorWith (nodeFoundWith app depth) p id cb).2
        ↔ CarefulLookup app depth p id cb) := by
    intro id cb hcb
    constructor
    · intro hdisciplined
      by_contra hnot
      exact (breaks_of_not_careful hnot).not_disciplined hp hdisciplined
    · intro hcareful
      exact (hcareful.sectioned hcb).disciplined hp
  have hright : ∀ {q : Process ν}, Sectioned p q → (Disciplined p q ↔ True) :=
    fun h => iff_true_intro (h.disciplined hp)
  cases o with
  | findSuccessor id arg => exact hlookup id (.app arg) trivial
  | succRequest id data =>
    rw [Operation.run, hlookup id (.successorFoundForRemote data) trivial]
    have hcalls : ∀ q n hops, callsOf app depth q
        { cb := .successorFoundForRemote data, node := n, hops := hops } = [] := by
      intro q n hops
      cases depth <;> rfl
    exact and_iff_left fun _ => hcalls _ _ _
  | found data =>
    rw [Operation.run, Operation.Careful]
    cases depth with
    | zero => exact hright (nodeFound_sectioned p data)
    | succ depth =>
      rw [nodeFoundWith, Nat.add_sub_cancel]
      have hfirst := nodeFound_sectioned p data
      generalize callsOf app (depth + 1) p data = calls
      constructor
      · intro hdisciplined
        by_contra hnot
        have hbreaks := hfirst.atLeast.trans_breaks (breaks_of_not_carefulCalls hnot)
        exact hbreaks.not_disciplined hp hdisciplined
      · intro hcareful
        exact (hfirst.trans hcareful.sectioned).disciplined hp
  | checked cb success => exact hright (Sectioned.of_quiet (nodeCheckResult_quiet p cb success))
  | stabalize => exact hright (Sectioned.of_quiet (nodeNetworkStabalize_quiet p))
  | updateSuccs => exact hright (nodeUpdateSuccs_sectioned p)
  | fixFingers => exact hright (nodeFixFingers_sectioned p)
  | checkSuccessors => exact hright (Sectioned.of_quiet (nodeCheckSuccessors_quiet p))
  | checkPredecessor =>
    apply hright
    apply Sectioned.of_quiet
    rw [Operation.run, nodeCheckPredecessor]
    split
    · exact Uses.refl p
    · exact nodeCheckNode_quiet (Uses.refl p) _ _
  | joined arg => exact hright (nodeNetworkJoined_sectioned p arg)
  | networkCreate arg => exact hright (Sectioned.of_quiet (nodeNetworkCreate_quiet p arg))
  | networkJoin node arg => exact hright (Sectioned.of_quiet (nodeNetworkJoin_quiet p node arg))

/-! ### The mutex between operations -/

/-- A lookup ends with the mutex released, whosever identifier it is for. -/
theorem nodeFindSuccessorWith_unlocks (p : Process ν) (id : HashType) (cb : FoundCb) :
  (nodeFindSuccessorWith found p id cb).2.succsLock = false
  := by
  have hrest : ∀ (q : Process ν) cb, (nodeFindSuccessorRest found q id cb).2.succsLock = false := by
    intro q cb
    by_cases h : q.node.Answers id
    · rw [nodeFindSuccessorRest_answer h]
      rfl
    · exact (nodeFindSuccessorRest_forward h).held.eq_of_unlock
  by_cases heq : p.node.self.id = id
  · rw [nodeFindSuccessorWith_self heq]
    exact hrest _ _
  · rw [nodeFindSuccessorWith_of_ne heq]
    exact hrest _ _

/-- An operation that finds the mutex free leaves it free. -/
theorem Operation.run_unlocks (hp : p.succsLock = false) (depth : ℕ) (o : Operation) :
  (o.run app depth p).succsLock = false
  := by
  cases o with
  | findSuccessor id arg => exact nodeFindSuccessorWith_unlocks p id _
  | succRequest id data => exact nodeFindSuccessorWith_unlocks p id _
  | found data =>
    have hfound := ((nodeFound_sectioned p data).disciplined hp).2
    cases depth with
    | zero => exact hfound
    | succ depth =>
      rw [Operation.run, nodeFoundWith]
      -- the last of the lookups that the callback starts releases the mutex
      induction callsOf app (depth + 1) p data using List.reverseRecOn with
      | nil => exact hfound
      | append_singleton calls call ih =>
        rw [List.foldl_append]
        exact nodeFindSuccessorWith_unlocks _ _ _
  | _ =>
    apply And.right
    apply (Operation.disciplined_iff hp depth _).mpr
    trivial

end

/-! ### Runs -/

section

variable {ν : Type} [Remote ν] (app : App ν)

/-- What is no use of the mutex leaves it free. -/
theorem LockStep.disciplined_iff {p : Process ν} (hp : p.succsLock = false) (step : LockStep ν) :
  Disciplined p (step.run app p) ↔ step.Careful app p
  := by
  cases step with
  | operation depth o => exact o.disciplined_iff hp depth
  | elsewhere node net events =>
    apply iff_true_intro
    have hother : Quiet p (p.elsewhere node net events) :=
      (Uses.refl p).other rfl (by simp [List.filter_filter]) rfl
    exact (Sectioned.of_quiet hother).disciplined hp

/-- In a run of a node that has just been created the mutex is used as it should be exactly
when the lookups are careful: none is for the node's own identifier, and no callback that
is called under the mutex starts one. -/
theorem locksRight_iff (s : NodeSelf) (net : ν) (steps : List (LockStep ν)) :
  let p : Process ν := { node := s, net := net, succsLock := false, log := [] }
  LocksRight app p steps ↔ CarefulRun app p steps
  := by
  have hrun : ∀ p : Process ν, p.succsLock = false →
      (LocksRight app p steps ↔ CarefulRun app p steps) := by
    induction steps with
    | nil => exact fun p _ => Iff.rfl
    | cons step steps ih =>
      intro p hp
      rw [LocksRight, CarefulRun, step.disciplined_iff app hp]
      apply and_congr_right
      intro hcareful
      exact ih _ ((step.disciplined_iff app hp).mpr hcareful).2
  exact hrun _ rfl

end

/-- An application whose callback `0` starts a lookup of `5`. -/
def lookingUpAgain : App Outbox :=
  fun _ arg _ _ => if arg = 0 then [(5, 1)] else []

/-- A lookup that the first successor is the answer to, with a callback that starts another
one: the mutex is taken twice. -/
theorem mutex_taken_twice :
  ¬ ∀ (app : App Outbox) (s : NodeSelf) (steps : List (LockStep Outbox)),
    LocksRight app (idle s) steps
  := by
  intro h
  obtain ⟨⟨-, hfree⟩, hlookup, -⟩ := h lookingUpAgain .blank
    [.operation 0 (.networkCreate 0), .operation 1 (.findSuccessor 5 0)]
  have hcareful := ((Operation.findSuccessor 5 0).disciplined_iff hfree 1).mp hlookup
  have hcalls := hcareful.2 (by decide +kernel)
  cases hcalls
