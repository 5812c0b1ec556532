import LibDht.Protocol.Turns
import LibDht.Run.Fairness
import Mathlib.Logic.Equiv.List
import Mathlib.Tactic.DeriveCountable

/-!
# Fair runs of a network

In a fair run every message in flight arrives at some later step, and every timer of every
joined node fires again and again. Messages may be lost, as long as they arrive when sent
again, and they arrive in any order. A request for the identifier of the node that it is
addressed to would crash the node, and need not arrive. There is a fair run from every network
of which the invariant holds.

In a fair run a node that forwards a lookup brings it closer to its identifier. So some node
answers, and the reply goes back through all who forwarded the lookup; or the lookup comes to
the node that has the identifier.
-/

open Circle Function

instance : Finite HashType :=
  Finite.of_injective _ (OnCircle.position_injective (α := HashType))

instance countableUInt16 : Countable UInt16 :=
  Function.Injective.countable fun _ _ => UInt16.toNat_inj.mp

instance countableInt16 : Countable Int16 :=
  Function.Injective.countable fun _ _ => Int16.toInt_inj.mp

deriving instance Countable for NodeInfo
deriving instance Countable for IncomingHandlerData
deriving instance Countable for FoundCb
deriving instance Countable for Frame
deriving instance Countable for Msg

instance : Finite Timer := by
  apply Set.finite_univ_iff.mp
  apply Set.Finite.subset (Set.toFinite {.stabilise, .updateSuccs, .fixFingers})
  intro t _
  cases t with
  | stabilise => simp
  | updateSuccs => simp
  | fixFingers => simp

instance : Nonempty Timer :=
  ⟨.stabilise⟩

/-- The process that a message is for. No process lives to handle a request for its own
identifier. -/
def Msg.receiver : Msg → Option HashType
  | .succRequest dest id _ => if dest = id then none else some dest
  | .succReply _ _ frames => frames.head?.map Frame.owner
  | .predRequest dest _ => some dest
  | .predReply _ _ f => some f.owner
  | .notify dest _ _ => some dest

/-- A request that would crash the node that it is addressed to. -/
def Msg.Fatal : Msg → Prop
  | .succRequest dest id _ => dest = id
  | _ => False

theorem Msg.receiver_succRequest {dest id : HashType} (hne : dest ≠ id) (frames : List Frame) :
  (Msg.succRequest dest id frames).receiver = some dest
  := if_neg hne

/-- The node at the bottom of a stack joins with the message when its callback does. -/
theorem joinerOf_of_getLast {frames : List Frame} {f : Frame} (hf : frames.getLast? = some f)
    (hjoins : Net.joins f.cb = true) :
  joinerOf frames = some f.owner
  := by
  induction frames with
  | nil => cases hf
  | cons g frames ih =>
    cases frames with
    | nil =>
      cases hf
      exact if_pos hjoins
    | cons g' frames =>
      rw [List.getLast?_cons_cons] at hf
      exact ih hf

namespace Net

variable {c : HashType} {net net' : Net} {m : Msg}

/-! ### Fair runs -/

/-- A network as a system: messages arrive, and the timers of the joined nodes fire. -/
def system : System Net Msg (Timer × HashType) where
  step := Step
  queue net := net.msgs.filter (·.receiver.isSome)
  arrives := Arrives
  enabled t net := t.2 ∈ net.Joined
  fires t := Fires t.1 t.2

/-- A run in which every message in flight that is for a process arrives, and every timer of a
joined node fires again and again. -/
abbrev Fair (run : ℕ → Net) : Prop :=
  system.Fair run

/-- A message for a process can arrive, and the others stay in flight. -/
theorem exists_arrives (hm : m ∈ net.msgs) {i : HashType} (hr : m.receiver = some i) {peer : Peer}
    (hi : net.peer i = some peer) :
  ∃ net', Arrives m net net' ∧ ∀ x ∈ net.msgs, x ≠ m → x ∈ net'.msgs
  := by
  obtain ⟨before, after, hsplit⟩ := List.append_of_mem hm
  have hstays : ∀ out, ∀ x ∈ net.msgs, x ≠ m → x ∈ before ++ after ++ out := by
    intro out x hx hne
    rw [hsplit] at hx
    simp only [List.mem_append, List.mem_cons] at hx ⊢
    rcases hx with hx | rfl | hx
    · exact Or.inl (Or.inl hx)
    · exact absurd rfl hne
    · exact Or.inl (Or.inr hx)
  cases m with
  | succRequest dest id frames =>
    by_cases hid : dest = id
    · rw [Msg.receiver, if_pos hid] at hr
      cases hr
    · rw [Msg.receiver_succRequest hid] at hr
      cases hr
      exact ⟨_, .succRequest hsplit hi hid, hstays _⟩
  | succReply node hops frames =>
    cases frames with
    | nil => cases hr
    | cons f frames =>
      cases hr
      exact ⟨_, .succReply hsplit hi, hstays _⟩
  | predRequest dest f =>
    cases hr
    exact ⟨_, .predRequest 0 hsplit hi, hstays _⟩
  | predReply node hops f =>
    cases hr
    exact ⟨_, .predReply hsplit hi, hstays _⟩
  | notify dest id port =>
    cases hr
    exact ⟨_, .notify 1 (by decide) hsplit hi, hstays _⟩

/-- Who waits for a reply is a process. -/
theorem Invariant.exists_owner (h : Invariant c net) {node : NodeInfo} {hops : Int16} {f : Frame}
    {frames : List Frame} (hm : .succReply node hops (f :: frames) ∈ net.msgs) :
  ∃ peer, net.peer f.owner = some peer
  := by
  obtain ⟨-, ⟨id, hstack⟩, -⟩ := h.msg _ hm
  cases frames with
  | cons g frames =>
    obtain ⟨-, ⟨s, hs⟩, -⟩ := hstack
    exact ⟨_, hs⟩
  | nil =>
    obtain ⟨owner, cb⟩ := f
    cases cb with
    | networkJoinSuccFound arg =>
      obtain ⟨s, hs⟩ := h.joining owner (List.mem_filterMap.mpr ⟨_, hm, rfl⟩)
      exact ⟨_, hs⟩
    | stabilizeSpFound => exact absurd hstack not_false
    | successorFoundForRemote d => exact absurd hstack not_false
    | freed => exact absurd hstack not_false
    | updateSuccsFound k =>
      obtain ⟨⟨s, hs⟩, -⟩ := hstack
      exact ⟨_, hs⟩
    | fingerUpdate k =>
      obtain ⟨s, hs⟩ := hstack
      exact ⟨_, hs⟩
    | app arg =>
      obtain ⟨s, hs⟩ := hstack
      exact ⟨_, hs⟩

/-- A message in flight is for a process, or fatal. -/
theorem Invariant.exists_receiver (h : Invariant c net) (hm : m ∈ net.msgs) (hsafe : ¬ m.Fatal) :
  ∃ i peer, m.receiver = some i ∧ net.peer i = some peer
  := by
  have hok : MsgOk c net.Joined m := h.msg m hm
  cases m with
  | succRequest dest id frames =>
    obtain ⟨⟨s, hd⟩, -⟩ := hok
    exact ⟨_, _, Msg.receiver_succRequest hsafe frames, hd⟩
  | succReply node hops frames =>
    cases frames with
    | nil =>
      obtain ⟨-, ⟨id, hstack⟩, -⟩ := hok
      exact absurd hstack not_false
    | cons f frames =>
      obtain ⟨peer, hd⟩ := h.exists_owner hm
      exact ⟨_, peer, rfl, hd⟩
  | predRequest dest f =>
    obtain ⟨⟨s, hd⟩, -⟩ := hok
    exact ⟨_, _, rfl, hd⟩
  | predReply node hops f =>
    obtain ⟨⟨s, hd⟩, -⟩ := hok
    exact ⟨_, _, rfl, hd⟩
  | notify dest id port =>
    obtain ⟨⟨s, hd⟩, -⟩ := hok
    exact ⟨_, _, rfl, hd⟩

/-- At the bottom of the stack of a request is who has started the lookup. -/
theorem Invariant.exists_bottom (h : Invariant c net) {dest id : HashType} {frames : List Frame}
    (hm : .succRequest dest id frames ∈ net.msgs) :
  ∃ f, frames.getLast? = some f
  := by
  obtain ⟨-, hstack⟩ := h.msg _ hm
  cases frames with
  | nil => exact absurd hstack not_false
  | cons f frames => exact ⟨_, List.getLast?_cons ..⟩

theorem Invariant.frames_ne_nil (h : Invariant c net) {dest id : HashType} {frames : List Frame}
    (hm : .succRequest dest id frames ∈ net.msgs) :
  frames ≠ []
  := by
  rintro rfl
  obtain ⟨f, hf⟩ := h.exists_bottom hm
  cases hf

theorem Invariant.mem_queue (h : Invariant c net) (hm : m ∈ net.msgs) (hsafe : ¬ m.Fatal) :
  m ∈ system.queue net
  := by
  obtain ⟨i, -, hr, -⟩ := h.exists_receiver hm hsafe
  exact List.mem_filter.mpr ⟨hm, Option.isSome_iff_exists.mpr ⟨i, hr⟩⟩

theorem serviceable (c : HashType) :
  system.Serviceable (Invariant c)
  where
    keeps _ _ h hs := h.step hs
    step_of_arrives _ _ _ h := h.step
    step_of_fires _ _ _ h := h.step
    arrive _ m h hm := by
      obtain ⟨hm, hr⟩ := List.mem_filter.mp hm
      have hsafe : ¬ m.Fatal := by
        intro hfatal
        cases m with
        | succRequest dest id frames =>
          obtain rfl : dest = id := hfatal
          simp [Msg.receiver] at hr
        | _ => exact hfatal.elim
      obtain ⟨i, peer, hr, hi⟩ := h.exists_receiver hm hsafe
      obtain ⟨net', harr, hstays⟩ := exists_arrives hm hr hi
      refine ⟨net', harr, ?_⟩
      intro x hx hne
      obtain ⟨hx, hrx⟩ := List.mem_filter.mp hx
      exact List.mem_filter.mpr ⟨hstays x hx hne, hrx⟩
    fire net t _ := by
      rintro ⟨s, hs⟩
      refine ⟨_, ⟨s, hs, rfl⟩, ?_⟩
      intro x hx
      obtain ⟨hx, hrx⟩ := List.mem_filter.mp hx
      exact List.mem_filter.mpr ⟨List.mem_append_left _ hx, hrx⟩
    stays _ _ t h hs ht := (Step.turn hs h).joined_subset ht

/-- There is a fair run from every network that a run reaches. -/
theorem Reachable.exists_fair (h : Reachable c net) :
  ∃ run, run 0 = net ∧ Fair run
  := (serviceable c).exists_fair h.invariant

/-! ### Lookups are answered -/

/-- The message `m` arrives, and its process sends `m'`. -/
def Yields (m m' : Msg) (net net' : Net) : Prop :=
  Arrives m net net' ∧ ∃ before after sent, net.msgs = before ++ m :: after
    ∧ net'.msgs = before ++ after ++ sent ∧ m' ∈ sent

theorem Arrives.yields (ha : Arrives m net net') (h : Orderly net) :
  ∃ i peer peer' out, net.peer i = some peer ∧ Receives i m peer peer' out
    ∧ ∀ m' ∈ out, m' ∈ net'.msgs ∧ Yields m m' net net'
  := by
  have hr := ha.received h
  obtain @⟨i, peer, peer', out, before, after, hm, hi, hrec⟩ := hr
  refine ⟨i, peer, peer', out, hi, hrec, ?_⟩
  intro m' hm'
  have hsent : m' ∈ out.toList := Option.mem_toList.mpr hm'
  exact ⟨List.mem_append_right _ hsent, ha, before, after, out.toList, hm, rfl, hsent⟩

/-- The message `m`, in flight in the state `n` of a run, leads to `m'` in the state `k`: it
waits and arrives, and so does what its process sends. -/
inductive Leads (run : ℕ → Net) : ℕ → Msg → ℕ → Msg → Prop where
  | waits {n k : ℕ} {m : Msg} (hk : n ≤ k) : Leads run n m k m
  | arrives {n j k : ℕ} {m m' m'' : Msg} (hj : n ≤ j) (hm : Yields m m' (run j) (run (j + 1)))
      (h : Leads run (j + 1) m' k m'') : Leads run n m k m''

/-- The request `m` is answered with `node`: the reply that it leads to arrives at the process
that waits in the frame `f`. -/
def AnsweredBy (run : ℕ → Net) (n : ℕ) (m : Msg) (f : Frame) (k : ℕ) (node : NodeInfo) : Prop :=
  ∃ hops, Leads run n m k (.succReply node hops [f])
    ∧ Arrives (.succReply node hops [f]) (run k) (run (k + 1))

/-- The request `m` for `id`, with `f` at the bottom of its stack, comes to the node that has the
identifier `id`. -/
def ComesHome (run : ℕ → Net) (n : ℕ) (m : Msg) (f : Frame) (id : HashType) (k : ℕ) : Prop :=
  ∃ frames, frames.getLast? = some f ∧ Leads run n m k (.succRequest id id frames)
    ∧ .succRequest id id frames ∈ (run k).msgs

section Run

variable {run : ℕ → Net}

theorem AnsweredBy.earlier {n j k : ℕ} {m m' : Msg} {f : Frame} {node : NodeInfo}
    (hj : n ≤ j) (hm : Yields m m' (run j) (run (j + 1)))
    (h : AnsweredBy run (j + 1) m' f k node) :
  AnsweredBy run n m f k node
  := by
  obtain ⟨hops, hleads, harr⟩ := h
  exact ⟨hops, .arrives hj hm hleads, harr⟩

theorem ComesHome.earlier {n j k : ℕ} {m m' : Msg} {f : Frame} {id : HashType}
    (hj : n ≤ j) (hm : Yields m m' (run j) (run (j + 1))) (h : ComesHome run (j + 1) m' f id k) :
  ComesHome run n m f id k
  := by
  obtain ⟨frames, hf, hleads, hin⟩ := h
  exact ⟨frames, hf, .arrives hj hm hleads, hin⟩

/-- The identifier for which a lookup comes home is that of a joined node, and nobody joins with
the lookup. -/
theorem ComesHome.joined {n k : ℕ} {m : Msg} {f : Frame} {id : HashType}
    (h : ComesHome run n m f id k) (hinv : Invariant c (run k)) :
  id ∈ (run k).Joined ∧ joins f.cb = false
  := by
  obtain ⟨frames, hf, -, hin⟩ := h
  obtain ⟨hid, hstack⟩ := hinv.msg _ hin
  refine ⟨hid, Bool.eq_false_iff.mpr ?_⟩
  intro hjoins
  have hjoiner := joinerOf_of_getLast hf hjoins
  exact hinv.not_mem_of_joiner hin hjoiner (hstack.joinerOf_eq hjoiner ▸ hid)

theorem Fair.reachable (h : Fair run) (h₀ : Reachable c (run 0)) (n : ℕ) :
  Reachable c (run n)
  := h.invariant (fun _ _ hreach hs => hreach.step hs) h₀ n (Nat.zero_le n)

theorem Reachable.invariant_run (h₀ : Reachable c (run 0)) (h : Fair run) (n : ℕ) :
  Invariant c (run n)
  := (h.reachable h₀ n).invariant

theorem Fair.turn (h : Fair run) (hinv : ∀ n, Invariant c (run n)) (n : ℕ) :
  run (n + 1) = run n ∨ Turn (run n) (run (n + 1))
  := (h.step n).imp_right fun hs => Step.turn hs (hinv n)

theorem Fair.timer (h : Fair run) (t : Timer) {n : ℕ} {i : HashType} (hi : i ∈ (run n).Joined) :
  ∃ k ≥ n, Fires t i (run k) (run (k + 1))
  := h.fires n (t, i) hi

/-- A message in flight that does not crash its process arrives. -/
theorem Fair.exists_arrives (h : Fair run) (hinv : ∀ n, Invariant c (run n)) {n : ℕ}
    (hm : m ∈ (run n).msgs) (hsafe : ¬ m.Fatal) :
  ∃ k ≥ n, Arrives m (run k) (run (k + 1))
  := h.arrives n m ((hinv n).mem_queue hm hsafe)

theorem Fair.received (h : Fair run) (hinv : ∀ n, Invariant c (run n)) {n : ℕ}
    (hm : m ∈ (run n).msgs) (hsafe : ¬ m.Fatal) :
  ∃ k ≥ n, Received m (run k) (run (k + 1))
  := by
  obtain ⟨k, hk, harr⟩ := h.exists_arrives hinv hm hsafe
  exact ⟨k, hk, harr.received (hinv k).orderly⟩

/-- A reply goes back to the node at the bottom of the stack. -/
theorem reply_arrives (h : Fair run) (hinv : ∀ n, Invariant c (run n)) {n : ℕ} {node : NodeInfo}
    {hops : Int16} {frames : List Frame} {f : Frame}
    (hm : .succReply node hops frames ∈ (run n).msgs) (hf : frames.getLast? = some f) :
  ∃ k ≥ n, AnsweredBy run n (.succReply node hops frames) f k node
  := by
  induction frames generalizing n hops with
  | nil => cases hf
  | cons g frames ih =>
    obtain ⟨k, hk, harr⟩ := h.exists_arrives hinv hm not_false
    cases frames with
    | nil =>
      cases hf
      exact ⟨k, hk, hops, .waits hk, harr⟩
    | cons g' frames =>
      obtain ⟨i, peer, peer', out, -, hrec, hout⟩ := harr.yields (hinv k).orderly
      cases hrec with
      | relayed =>
        obtain ⟨hin, hyields⟩ := hout _ rfl
        rw [List.getLast?_cons_cons] at hf
        obtain ⟨k', hk', hanswer⟩ := ih hin hf
        exact ⟨k', by omega, hanswer.earlier hk hyields⟩

/-- When from some point on every node that answers a lookup of `id` does so with a node that
satisfies `Q`, every lookup of `id` gets such an answer, or comes to the node `id`. -/
theorem request_answered (h : Fair run) (hinv : ∀ n, Invariant c (run n)) {id : HashType}
    {Q : NodeInfo → Prop} {n₀ : ℕ}
    (hQ : ∀ n ≥ n₀, ∀ i s, (run n).peer i = some ⟨s, true⟩ → i ≠ id → s.Answers id → Q s.firstSucc)
    {n : ℕ} (hn : n₀ ≤ n) {dest : HashType} {frames : List Frame} {f : Frame}
    (hm : .succRequest dest id frames ∈ (run n).msgs) (hf : frames.getLast? = some f) :
  ∃ k ≥ n, (∃ node, Q node ∧ AnsweredBy run n (.succRequest dest id frames) f k node)
    ∨ ComesHome run n (.succRequest dest id frames) f id k
  := by
  -- the induction is on the distance to `id`, which every forward brings down
  induction hd : clockwise dest id using Nat.strong_induction_on generalizing n dest frames with
  | _ d ih =>
    by_cases hhome : dest = id
    · subst hhome
      exact ⟨n, le_rfl, Or.inr ⟨frames, hf, .waits le_rfl, hm⟩⟩
    · obtain ⟨j, hj, harr⟩ := h.exists_arrives hinv hm hhome
      obtain ⟨i, peer, peer', out, hi, hrec, hout⟩ := harr.yields (hinv j).orderly
      cases hrec with
      | answer hid hans =>
        obtain ⟨hin, hyields⟩ := hout _ rfl
        obtain ⟨k, hk, hanswer⟩ := reply_arrives h hinv hin hf
        have hnode := hQ j (by omega) _ _ hi hid hans
        exact ⟨k, by omega, Or.inl ⟨_, hnode, hanswer.earlier hj hyields⟩⟩
      | @forward s _ _ hid hans =>
        obtain ⟨hin, hyields⟩ := hout _ rfl
        have hlt := (hinv j).closer hi hans
        have hlast : (({ owner := dest, cb := relay } : Frame) :: frames).getLast? = some f := by
          cases frames with
          | nil => cases hf
          | cons g frames => exact List.getLast?_cons_cons.trans hf
        obtain ⟨k, hk, hfound⟩ := ih _ (hd ▸ hlt) (by omega) hin hlast rfl
        refine ⟨k, by omega, ?_⟩
        rcases hfound with ⟨node, hnode, hanswer⟩ | hcomes
        · exact Or.inl ⟨node, hnode, hanswer.earlier hj hyields⟩
        · exact Or.inr (hcomes.earlier hj hyields)

/-- In a fair run of any network that the nodes may have come to, whatever is lost, delayed or
overtaken on the way, every lookup in flight leads to a reply with a joined node, which arrives
at the node that started the lookup, unless it comes to the node that it asks for. With a lookup
that comes there nobody joins. -/
theorem Fair.lookup_answered (h : Fair run) (h₀ : Reachable c (run 0)) {n : ℕ}
    {dest id : HashType} {frames : List Frame} (hm : .succRequest dest id frames ∈ (run n).msgs) :
  ∃ f, frames.getLast? = some f ∧ ∃ k ≥ n,
    (∃ node, node.id ∈ (run k).Joined
      ∧ AnsweredBy run n (.succRequest dest id frames) f k node)
    ∨ joins f.cb = false ∧ ComesHome run n (.succRequest dest id frames) f id k
  := by
  have hinv := h₀.invariant_run h
  obtain ⟨f, hf⟩ := (hinv n).exists_bottom hm
  refine ⟨f, hf, ?_⟩
  obtain ⟨k, hk, hfound⟩ := request_answered h hinv (Q := fun _ => True)
    (fun _ _ _ _ _ _ _ => trivial) le_rfl hm hf
  use k, hk
  rcases hfound with ⟨node, -, hops, hleads, harr⟩ | hcomes
  · exact Or.inl ⟨node, ((hinv k).msg _ harr.mem).1.id_mem, hops, hleads, harr⟩
  · exact Or.inr ⟨(hcomes.joined (hinv k)).2, hcomes⟩

end Run

/-- In the settled network of the nodes `5` and `9` the node `7` has called
`node_network_join`. -/
def third : Net :=
  settled.act 7 false []
    (nodeNetworkJoin (idle (nodeCreate .blank 7 4002)) { id := 5, IP := 0x7F000001, port := 4000 } 0)

theorem settled_peer_seven :
  settled.peer 7 = none
  := by
  by_contra h
  rcases mem_settled h with h | h <;> exact absurd h (by decide)

theorem reachable_third :
  Reachable 5 third
  := by
  have hmap : (settled.peer 5).map Peer.joined = some true := by decide +kernel
  obtain ⟨⟨s, b⟩, hs, hb⟩ := Option.map_eq_some_iff.mp hmap
  obtain rfl : b = true := hb
  have hblank : ∀ k, NullFinger (NodeSelf.blank.fingerTable k) := fun _ => Or.inl rfl
  apply reachable_settled.step
  exact Step.join .blank 4002 _ 0 settled_peer_seven ⟨s, hs⟩ fun k => Or.inl (hblank k)

/-- The node `7` is answered, and joins. -/
theorem lookup_answered_third :
  ∃ run, run 0 = third ∧ Fair run ∧ ∃ k node, node.id ∈ (run k).Joined
    ∧ AnsweredBy run 0 (.succRequest 5 7 [⟨7, .networkJoinSuccFound 0⟩])
      ⟨7, .networkJoinSuccFound 0⟩ k node
  := by
  obtain ⟨run, hzero, hfair⟩ := reachable_third.exists_fair
  have hm : .succRequest 5 7 [⟨7, .networkJoinSuccFound 0⟩] ∈ (run 0).msgs := by
    rw [hzero]
    exact List.mem_append_right _ List.mem_cons_self
  obtain ⟨f, hf, k, -, hanswer⟩ := hfair.lookup_answered (hzero ▸ reachable_third) hm
  cases hf
  refine ⟨run, hzero, hfair, k, hanswer.resolve_right ?_⟩
  rintro ⟨hjoins, -⟩
  cases hjoins

end Net
