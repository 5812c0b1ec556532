import LibDht.Protocol.Convergence

/-!
# What settles on the ideal ring

Once a fair run has come to the ideal ring, every lookup is answered with the node that owns
its identifier, unless it comes to that node itself. Lookups that were started before, and
replies that were given before, are used up: a request loses weight with every forward, and a
reply with every node that hands it on. After that nothing wrong is written into a finger table
or a successor array, and as the timers go on firing, what is looked for is written.
-/

open Circle Filter Function

/-- A node answers for the identifier after its own. -/
theorem NodeSelf.answers_succ (s : NodeSelf) :
  s.Answers (s.self.id + 1)
  := by
  by_cases hself : s.self.id = s.firstSucc.id
  · exact Or.inr hself
  · left
    rw [nodeIdInRange_iff]
    have hne : s.self.id.toNat ≠ s.firstSucc.id.toNat := fun heq => hself (UInt32.toNat_inj.mp heq)
    have hsucc : (s.self.id + 1).toNat = (s.self.id.toNat + 1) % 2 ^ 32 := by
      simp [UInt32.toNat_add]
    have hself' := s.self.id.toNat_lt
    have hfirst := s.firstSucc.id.toNat_lt
    have h₁ := clockwise_cases s.self.id (s.self.id + 1)
    have h₂ := clockwise_cases s.self.id s.firstSucc.id
    simp only [position_val, UInt32.size] at h₁ h₂
    omega

/-- How long a message still is on the way: a reply goes back over all who wait for it. -/
def Msg.waits : Msg → ℕ
  | .succReply _ _ frames => frames.length + 1
  | _ => 1

theorem Msg.waits_pos (m : Msg) :
  0 < m.waits
  := by
  cases m <;> exact Nat.succ_pos _

namespace Net

variable {c : HashType} {net net' : Net}

/-! ### Weights of messages -/

/-- What a message brings about weighs less than the message, or nothing, and what nodes start
by themselves weighs nothing. -/
structure WearsDown (weight : Msg → ℕ) (net : Net) : Prop where
  received : ∀ {i m peer peer' out}, m ∈ net.msgs → net.peer i = some peer →
    Receives i m peer peer' (some out) → weight out < weight m ∨ weight out = 0
  started : ∀ {i s s' sent}, net.peer i = some ⟨s, true⟩ → Starts i s s' sent →
    ∀ m ∈ sent, weight m = 0
  asked : ∀ i dest arg, weight (.succRequest dest i [⟨i, .networkJoinSuccFound arg⟩]) = 0

section Weights

variable {w : Msg → ℕ} {m : Msg}

theorem WearsDown.received_le (h : WearsDown w net) (hr : Received m net net') :
  (net'.msgs.map w).sum ≤ (net.msgs.map w).sum
    ∧ (0 < w m → (net'.msgs.map w).sum < (net.msgs.map w).sum)
  := by
  obtain @⟨i, peer, peer', out, before, after, hm, hi, hrec⟩ := hr
  have hout : (out.toList.map w).sum < w m ∨ (out.toList.map w).sum = 0 := by
    cases out with
    | none => exact Or.inr rfl
    | some out =>
      have hin : m ∈ net.msgs := hm ▸ List.mem_append_right _ List.mem_cons_self
      simpa using h.received hin hi hrec
  simp only [hm, List.map_append, List.map_cons, List.sum_append, List.sum_cons]
  omega

theorem WearsDown.turn_le (h : WearsDown w net) (ht : Turn net net') :
  (net'.msgs.map w).sum ≤ (net.msgs.map w).sum
  := by
  cases ht with
  | received hr => exact (h.received_le hr).1
  | started hi hstart =>
    have hzero := List.sum_eq_zero_iff_forall_eq_nat.mpr
      (List.forall_mem_map.mpr (h.started hi hstart))
    simp only [List.map_append, List.sum_append, hzero]
    exact le_rfl
  | @asked i s contact arg hi hc =>
    simp [h.asked i contact.id arg]
  | lost hm =>
    simp only [hm, List.map_append, List.map_cons, List.sum_append, List.sum_cons]
    omega

/-- What wears down is used up, when it arrives. -/
theorem Fair.wears_down {run : ℕ → Net} (h : Fair run) (hinv : ∀ n, Invariant c (run n))
    (hsafe : ∀ n, ∀ m ∈ (run n).msgs, m.Fatal → w m = 0)
    (hw : ∀ᶠ n in atTop, WearsDown w (run n)) :
  ∀ᶠ n in atTop, ∀ m ∈ (run n).msgs, w m = 0
  := by
  have hzero : ∀ᶠ n in atTop, ((run n).msgs.map w).sum = 0 := by
    apply h.used_up (fun net => (net.msgs.map w).sum) (fun m => 0 < w m)
    · apply hw.mono
      intro n hn
      rcases h.turn hinv n with heq | ht
      · rw [heq]
      · exact hn.turn_le ht
    · apply hw.mono
      intro n hn m hm harr
      exact (hn.received_le (Arrives.received harr (hinv n).orderly)).2 hm
    · intro n hpos
      obtain ⟨v, hv, hvpos⟩ := List.sum_pos_iff_exists_pos_nat.mp hpos
      obtain ⟨m, hm, rfl⟩ := List.mem_map.mp hv
      exact ⟨m, (hinv n).mem_queue hm fun hfatal => hvpos.ne' (hsafe n m hm hfatal), hvpos⟩
  apply hzero.mono
  intro n hn m hm
  exact List.sum_eq_zero_iff_forall_eq_nat.mp hn _ (List.mem_map_of_mem hm)

open Classical in
/-- The weight of messages of a kind. -/
noncomputable def weightOf (late : Msg → Prop) (m : Msg) : ℕ :=
  if late m then m.waits else 0

theorem weightOf_pos_iff {late : Msg → Prop} {m : Msg} :
  0 < weightOf late m ↔ late m
  := by
  rw [weightOf]
  split_ifs with hm
  · exact iff_of_true m.waits_pos hm
  · exact iff_of_false (lt_irrefl 0) hm

/-- Messages of a kind wear down when they are brought about by others of the kind only. -/
theorem wearsDown_weightOf {net : Net} {late : Msg → Prop}
    (hrec : ∀ {i m peer peer' out}, m ∈ net.msgs → net.peer i = some peer →
      Receives i m peer peer' (some out) → late out → late m ∧ out.waits < m.waits)
    (hstart : ∀ {i s s' sent}, net.peer i = some ⟨s, true⟩ → Starts i s s' sent →
      ∀ m ∈ sent, ¬ late m)
    (hask : ∀ i dest arg, ¬ late (.succRequest dest i [⟨i, .networkJoinSuccFound arg⟩])) :
  WearsDown (weightOf late) net
  := by
  constructor
  · intro i m peer peer' out hm hi hr
    rw [weightOf, weightOf]
    split_ifs with hout hlate
    · exact Or.inl (hrec hm hi hr hout).2
    · exact absurd (hrec hm hi hr hout).1 hlate
    · exact Or.inr rfl
    · exact Or.inr rfl
  · intro i s s' sent hi hstarts m hm
    exact if_neg (hstart hi hstarts m hm)
  · intro i dest arg
    exact if_neg (hask i dest arg)

/-- So do answers of a kind. -/
theorem wearsDown_answers {net : Net} {late : Msg → Prop}
    (hreq : ∀ dest id frames, ¬ late (.succRequest dest id frames))
    (hpred : ∀ dest f, ¬ late (.predRequest dest f))
    (hrec : ∀ {i m peer peer' out}, m ∈ net.msgs → net.peer i = some peer →
      Receives i m peer peer' (some out) → late out → late m ∧ out.waits < m.waits) :
  WearsDown (weightOf late) net
  := by
  refine wearsDown_weightOf hrec ?_ fun _ _ _ => hreq _ _ _
  intro i s s' sent hi hstart m hm
  rcases hstart.request hm with rfl | ⟨dest, id, frames, rfl⟩
  · apply hpred
  · apply hreq

end Weights

/-! ### Requests for entries -/

/-- A request for an entry of a successor array asks a node for what comes after it, and nobody
has forwarded it. -/
def Direct : Msg → Prop
  | .succRequest dest id frames => ∀ i k, frames.getLast? = some ⟨i, .updateSuccsFound k⟩ →
      id = dest + 1 ∧ frames = [⟨i, .updateSuccsFound k⟩]
  | _ => True

theorem direct_of_start {dest id i : HashType} {cb : FoundCb}
    (h : ∀ k, cb = .updateSuccsFound k → id = dest + 1) :
  Direct (.succRequest dest id [⟨i, cb⟩])
  := by
  intro x k hbottom
  cases hbottom
  exact ⟨h k rfl, rfl⟩

/-- Every node answers what it is asked for an entry. -/
theorem Invariant.answers_direct (h : Invariant c net) {i id : HashType} {s : NodeSelf}
    (hi : net.peer i = some ⟨s, true⟩) {frames : List Frame}
    (hd : Direct (.succRequest i id frames)) {x : HashType} {k : ℤ}
    (hbottom : frames.getLast? = some ⟨x, .updateSuccsFound k⟩) :
  s.Answers id
  := by
  rw [(hd x k hbottom).1, ← (h.peer hi).self_id]
  exact s.answers_succ

theorem Turn.direct (ht : Turn net net') (h : Invariant c net) (hd : ∀ m ∈ net.msgs, Direct m) :
  ∀ m ∈ net'.msgs, Direct m
  := by
  intro m hm
  rcases ht.brings hm with hm | hbrings
  · exact hd m hm
  · cases hbrings with
    | @received i m' peer peer' hm' hi hrec =>
      generalize hout : some m = out at hrec
      cases hrec with
      | @forward s id frames hid hans =>
        cases hout
        intro x k hbottom
        obtain ⟨f, rest, rfl⟩ := List.exists_cons_of_ne_nil (h.frames_ne_nil hm')
        rw [List.getLast?_cons_cons] at hbottom
        exact absurd (h.answers_direct hi (hd _ hm') hbottom) hans
      | entry hk =>
        split_ifs at hout
        cases hout
        exact direct_of_start fun _ _ => rfl
      | _ => cases hout <;> exact trivial
    | started hi hstart hsent =>
      cases hstart with
      | stabilise =>
        cases List.mem_singleton.mp hsent
        exact trivial
      | updateSuccs hk =>
        cases List.mem_singleton.mp hsent
        exact direct_of_start fun _ _ => rfl
      | fixFingers =>
        obtain ⟨dest, k, -, rfl⟩ := eq_of_mem_route_fixFingers hsent
        exact direct_of_start (by rintro k ⟨⟩)
      | lookup hid hans =>
        cases List.mem_singleton.mp hsent
        exact direct_of_start (by rintro k ⟨⟩)
      | answered => cases hsent
    | asked hm =>
      subst hm
      exact direct_of_start (by rintro k ⟨⟩)

theorem Reachable.direct (h : Reachable c net) :
  ∀ m ∈ net.msgs, Direct m
  := by
  induction h with
  | created => exact fun m hm => by cases hm
  | step h hs ih => exact (Step.turn hs h.invariant).direct h.invariant ih

/-- No request for an entry comes to the node that it asks for. -/
theorem ComesHome.not_entry {run : ℕ → Net} {n j : ℕ} {m : Msg} {i id : HashType} {k : ℤ}
    (hd : ∀ m ∈ (run j).msgs, Direct m) :
  ¬ ComesHome run n m ⟨i, .updateSuccsFound k⟩ id j
  := by
  rintro ⟨frames, hf, -, hin⟩
  have hid := (hd _ hin i k hf).1
  simp at hid

/-! ### Lookups on the ideal ring -/

/-- From the state `T` on the nodes `J` have joined, and the network is the ideal ring. -/
structure Steady (c : HashType) (J : Set HashType) (run : ℕ → Net) (T : ℕ) : Prop where
  fair : Fair run
  invariant : ∀ n, Invariant c (run n)
  direct : ∀ n, ∀ m ∈ (run n).msgs, Direct m
  joined : ∀ n ≥ T, (run n).Joined = J
  ideal : ∀ n ≥ T, (run n).Ideal

section Run

variable {run : ℕ → Net} {T : ℕ} {J : Set HashType}

theorem Fair.exists_steady (h : Fair run) (h₀ : Reachable c (run 0))
    (hparted : ∃ n, Parted (run n)) :
  ∃ T, Steady c (run T).Joined run T
  := by
  have hinv := h₀.invariant_run h
  obtain ⟨T, hrest⟩ := exists_resting h hinv hparted
  have hdirect := fun n => (h.reachable h₀ n).direct
  exact ⟨T, h, hinv, hdirect, fun n hn => hrest.joined hn, fun n hn => hrest.ideal h hinv hn⟩

namespace Steady

variable {n : ℕ} {i : HashType} {s : NodeSelf}

theorem mem (h : Steady c J run T) (hn : T ≤ n) (hs : (run n).peer i = some ⟨s, true⟩) :
  i ∈ J
  := h.joined n hn ▸ ⟨s, hs⟩

theorem settled (h : Steady c J run T) (hn : T ≤ n) (hs : (run n).peer i = some ⟨s, true⟩) :
  Overlay.Settled J i s
  := by
  have hpeer := (h.invariant n).peer hs
  have hfirst := ((h.invariant n).running hs).firstAlive
  rw [idle_node] at hfirst
  rw [← h.joined n hn]
  constructor
  · exact hpeer.self_id
  · rw [hfirst]
    decide
  · exact (h.ideal n hn i s hs).1
  · exact hpeer.finger

/-- Whoever can answer a lookup answers with the owner of the identifier. -/
theorem nearest (h : Steady c J run T) (hn : T ≤ n) (hs : (run n).peer i = some ⟨s, true⟩)
    {id : HashType} (hid : i ≠ id) (hans : s.Answers id) :
  Nearest J id s.firstSucc.id
  := by
  have hsettled := h.settled hn hs
  exact Overlay.nearest_of_answers hsettled.self_id hsettled.succ_next hid hans

/-- What holds of a node in the end, when no turn takes it away and it holds again and again. -/
theorem ultimately (h : Steady c J run T) {P : HashType → NodeSelf → Prop}
    (hstep : ∀ᶠ n in atTop, ∀ i s s', (run n).peer i = some ⟨s, true⟩ →
      Change (run n).msgs i s s' → P i s → P i s')
    (hsome : ∀ i ∈ J, ∀ N, ∃ n ≥ N, ∃ s, (run n).peer i = some ⟨s, true⟩ ∧ P i s) :
  ∀ᶠ n in atTop, ∀ i s, (run n).peer i = some ⟨s, true⟩ → P i s
  := by
  refine Ultimately.forall_of_step (J := J) (fun n i s => (run n).peer i = some ⟨s, true⟩) ?_ ?_ ?_
    hsome
  · intro n i s s' hs hs'
    rw [hs] at hs'
    cases hs'
    rfl
  · exact (eventually_ge_atTop T).mono fun n hT i s hs => h.mem hT hs
  · apply hstep.mono
    intro n hn i s hs hP
    rcases h.fair.turn h.invariant n with heq | ht
    · rw [heq]
      exact ⟨s, hs, hP⟩
    · obtain ⟨s', hs', hchange⟩ := ht.change hs
      exact ⟨s', hs', hn i s s' hs hchange hP⟩

/-- Every lookup is answered with the owner of the identifier, or comes to it. -/
theorem answered (h : Steady c J run T) (hn : T ≤ n) {dest id : HashType} {frames : List Frame}
    {f : Frame} (hm : .succRequest dest id frames ∈ (run n).msgs)
    (hf : frames.getLast? = some f) :
  ∃ k ≥ n, (∃ node, Nearest J id node.id
      ∧ AnsweredBy run n (.succRequest dest id frames) f k node)
    ∨ ComesHome run n (.succRequest dest id frames) f id k
  := by
  apply request_answered h.fair h.invariant (Q := fun node => Nearest J id node.id) _ hn hm hf
  intro n hn i s hs hid hans
  exact h.nearest hn hs hid hans

end Steady

/-- In a fair run in which the network is parted at some time, there comes a time from which on
every lookup in flight, by whomever it was started and wherever it has got to, leads to a reply
that names the node that owns the identifier to who started it, unless it comes to the owner
itself, which has exactly the identifier. -/
theorem Fair.lookup_finds_owner (h : Fair run) (h₀ : Reachable c (run 0))
    (hparted : ∃ n, Parted (run n)) :
  ∃ T, ∀ n ≥ T, ∀ dest id frames, .succRequest dest id frames ∈ (run n).msgs →
    ∃ f, frames.getLast? = some f ∧ ∃ k ≥ n,
      (∃ node, Nearest (run k).Joined id node.id
        ∧ AnsweredBy run n (.succRequest dest id frames) f k node)
      ∨ id ∈ (run k).Joined ∧ ComesHome run n (.succRequest dest id frames) f id k
  := by
  obtain ⟨T, hsteady⟩ := h.exists_steady h₀ hparted
  use T
  intro n hn dest id frames hm
  obtain ⟨f, hf⟩ := (hsteady.invariant n).exists_bottom hm
  obtain ⟨k, hk, hfound⟩ := hsteady.answered hn hm hf
  refine ⟨f, hf, k, hk, ?_⟩
  rcases hfound with ⟨node, hnear, hanswer⟩ | hcomes
  · rw [← hsteady.joined k (by omega)] at hnear
    exact Or.inl ⟨node, hnear, hanswer⟩
  · exact Or.inr ⟨(hcomes.joined (hsteady.invariant k)).1, hcomes⟩

/-- In the end the lookups in the network of `5`, `7` and `9` find the owners. -/
theorem lookup_finds_owner_third :
  ∃ run, run 0 = third ∧ Fair run
    ∧ ∃ T, ∀ n ≥ T, ∀ dest id frames, .succRequest dest id frames ∈ (run n).msgs →
      ∃ f, frames.getLast? = some f ∧ ∃ k ≥ n,
        (∃ node, Nearest (run k).Joined id node.id
          ∧ AnsweredBy run n (.succRequest dest id frames) f k node)
        ∨ id ∈ (run k).Joined ∧ ComesHome run n (.succRequest dest id frames) f id k
  := by
  obtain ⟨run, hzero, hfair⟩ := reachable_third.exists_fair
  refine ⟨run, hzero, hfair, ?_⟩
  exact hfair.lookup_finds_owner (hzero ▸ reachable_third) ⟨0, hzero ▸ parted_third⟩

end Run

/-! ### What a lookup is to ask for -/

/-- What the node at the bottom of the stack is to ask for, as far as `aim` says so. -/
def aimOf (aim : Frame → Option HashType) (frames : List Frame) : Option HashType :=
  frames.getLast?.bind aim

/-- A request for another identifier than the one it is to ask for weighs as much as it is away
from the identifier. -/
def strayRequest (aim : Frame → Option HashType) : Msg → ℕ
  | .succRequest dest id frames => if ∃ a ∈ aimOf aim frames, a ≠ id then clockwise dest id else 0
  | _ => 0

open Classical in
/-- A reply with another node than the owner of what was to be asked for weighs as much as it
has to go. -/
noncomputable def strayReply (J : Set HashType) (aim : Frame → Option HashType) : Msg → ℕ
  | .succReply node _ frames =>
    if ∃ a ∈ aimOf aim frames, ¬ Nearest J a node.id then frames.length else 0
  | _ => 0

section Aim

variable {aim : Frame → Option HashType} {J : Set HashType} {i : HashType} {m : Msg}

/-- Who forwards a lookup does not change what it is to ask for. -/
theorem aimOf_cons (f : Frame) {frames : List Frame} (h : frames ≠ []) :
  aimOf aim (f :: frames) = aimOf aim frames
  := by
  obtain ⟨g, frames, rfl⟩ := List.exists_cons_of_ne_nil h
  rw [aimOf, List.getLast?_cons_cons, aimOf]

theorem strayRequest_of_fatal (h : m.Fatal) :
  strayRequest aim m = 0
  := by
  cases m with
  | succRequest dest id frames =>
    obtain rfl : dest = id := h
    rw [strayRequest, clockwise_self, ite_self]
  | _ => exact h.elim

theorem strayReply_of_fatal (h : m.Fatal) :
  strayReply J aim m = 0
  := by
  cases m with
  | succRequest dest id frames => rfl
  | _ => exact h.elim

/-- Requests that ask for something else are used up when no new ones are started. -/
theorem wearsDown_strayRequest (h : Invariant c net)
    (hfresh : ∀ dest id f, Brings net (.succRequest dest id [f]) → ∀ a ∈ aim f, id = a) :
  WearsDown (strayRequest aim) net
  := by
  have hzero : ∀ {dest id f}, Brings net (.succRequest dest id [f]) →
      strayRequest aim (.succRequest dest id [f]) = 0 := by
    intro dest id f hb
    rw [strayRequest, if_neg]
    rintro ⟨a, ha, hne⟩
    exact hne (hfresh dest id f hb a ha).symm
  constructor
  · intro i m peer peer' out hm hi hrec
    have hb := Brings.received hm hi hrec
    generalize hout : some out = o at hrec
    cases hrec with
    | @forward s id frames hid hans =>
      cases hout
      have hlt := h.closer hi hans
      rw [strayRequest, strayRequest, aimOf_cons _ (h.frames_ne_nil hm)]
      split_ifs
      · exact Or.inl hlt
      · exact Or.inr rfl
    | entry hk =>
      split_ifs at hout
      cases hout
      exact Or.inr (hzero hb)
    | _ => exact Or.inr (by cases hout <;> rfl)
  · intro i s s' sent hi hstart m hm
    have hb := Brings.started hi hstart hm
    cases hstart with
    | stabilise =>
      obtain rfl := List.mem_singleton.mp hm
      rfl
    | updateSuccs =>
      obtain rfl := List.mem_singleton.mp hm
      exact hzero hb
    | fixFingers =>
      obtain ⟨dest, k, -, rfl⟩ := eq_of_mem_route_fixFingers hm
      exact hzero hb
    | lookup hid hans =>
      obtain rfl := List.mem_singleton.mp hm
      exact hzero hb
    | answered => cases hm
  · intro i dest arg
    exact hzero (.asked rfl)

/-- Replies with another node are used up when all requests ask for what they are to. -/
theorem wearsDown_strayReply
    (hright : ∀ dest id frames, .succRequest dest id frames ∈ net.msgs → dest ≠ id →
      ∀ a ∈ aimOf aim frames, a = id)
    (hnearest : ∀ i s, net.peer i = some ⟨s, true⟩ → ∀ id, i ≠ id → s.Answers id →
      Nearest J id s.firstSucc.id) :
  WearsDown (strayReply J aim) net
  := by
  constructor
  · intro i m peer peer' out hm hi hrec
    generalize hout : some out = o at hrec
    cases hrec with
    | @answer s id frames hid hans =>
      cases hout
      right
      rw [strayReply, if_neg]
      rintro ⟨a, ha, hne⟩
      rw [hright _ _ _ hm hid a ha] at hne
      exact hne (hnearest i s hi id hid hans)
    | @relayed s n hops f frames =>
      cases hout
      rw [strayReply, strayReply, aimOf_cons _ (List.cons_ne_nil f frames)]
      split_ifs
      · left
        simp
      · right
        rfl
    | entry hk =>
      split_ifs at hout
      cases hout
      exact Or.inr rfl
    | _ => exact Or.inr (by cases hout <;> rfl)
  · intro i s s' sent hi hstart m hm
    cases hstart with
    | fixFingers =>
      obtain ⟨dest, k, -, rfl⟩ := eq_of_mem_route_fixFingers hm
      rfl
    | answered => cases hm
    | _ =>
      obtain rfl := List.mem_singleton.mp hm
      rfl
  · intro i dest arg
    rfl

end Aim

/-- In the end every reply in flight names the owner of what was to be asked for, when in the
end nothing else is asked for. -/
theorem Steady.aimed {run : ℕ → Net} {T : ℕ} {J : Set HashType} (h : Steady c J run T)
    (aim : Frame → Option HashType)
    (hfresh : ∀ᶠ n in atTop, ∀ dest id f, Brings (run n) (.succRequest dest id [f]) →
      ∀ a ∈ aim f, id = a) :
  ∀ᶠ n in atTop, ∀ node hops frames, .succReply node hops frames ∈ (run n).msgs → frames ≠ [] →
    ∀ a ∈ aimOf aim frames, Nearest J a node.id
  := by
  have hrequests := h.fair.wears_down h.invariant (w := strayRequest aim)
    (fun _ m _ hfatal => strayRequest_of_fatal hfatal)
    (hfresh.mono fun n hn => wearsDown_strayRequest (h.invariant n) hn)
  have hreplies := h.fair.wears_down h.invariant (w := strayReply J aim)
    (fun _ m _ hfatal => strayReply_of_fatal hfatal) (by
      apply (hrequests.and (eventually_ge_atTop T)).mono
      rintro n ⟨hn, hT⟩
      apply wearsDown_strayReply
      · intro dest id frames hm hid a ha
        by_contra hne
        have hzero := hn _ hm
        rw [strayRequest, if_pos ⟨a, ha, hne⟩] at hzero
        exact hid (clockwise_eq_zero_iff.mp hzero)
      · intro i s hs id hid hans
        exact h.nearest hT hs hid hans)
  apply hreplies.mono
  intro n hn node hops frames hm hne a ha
  by_contra hnot
  have hzero := hn _ hm
  rw [strayReply, if_pos ⟨a, ha, hnot⟩] at hzero
  exact hne (List.length_eq_zero_iff.mp hzero)

end Net
